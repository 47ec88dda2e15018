/-
  A worker works off what is due.

  A failed job comes back later than it failed, since no delay is zero
  (`Made.backoff_pos`), and a job that was refused by the limits has failed.  So
  a cycle settles the job that it claims for the time at which it runs
  (`Settles.claiming`), and leaves the other jobs as they are.  At one reading
  of the clock, cycles claim the due jobs one after the other, in the order of
  their places, and then nothing (`backlog_is_worked_off`).
-/
import JobQueue.Proofs.Store.Backoff
import JobQueue.Proofs.Store.Epoch
import JobQueue.Proofs.Worker.Course

namespace JobQueue

/-! ## Settled jobs -/

/-- The job is finished, or waits for a later time. -/
def Job.IsSettled (now : Millis) (j : Job) : Prop :=
  j.status = .completed ∨ j.status = .failed ∨ j.status = .pending ∧ now < j.scheduledAt

theorem Job.settled_failing {retry : RetryPolicy} (made : retry.Made) {now : Millis}
    (hnow : now < Int64.maxValue) (j : Job) (message : String) :
    (j.failing retry now message).IsSettled now := by
  unfold failing RetryPolicy.decide
  split
  · rename_i delay hd
    split at hd
    · cases hd
    · cases hd
      exact .inr (.inr ⟨rfl, lt_addClamped hnow (made.backoff_pos _)⟩)
  · exact .inr (.inl rfl)

theorem Job.not_eligible_of_settled {now : Millis} {j : Job} (h : j.IsSettled now) :
    j.isEligible now = false := by
  rcases h with h | h | ⟨h, hlt⟩
  · simp [isEligible, h]
  · simp [isEligible, h]
  · simp [isEligible, Int64.not_le.2 hlt]

open Volatile

/-! ## One cycle -/

/-- `s'` is well formed, was not poisoned, and differs from `s` in the job of `x` only. -/
structure Volatile.Differs (x : Ranked) (job : Job) (s s' : Volatile) : Prop where
  valid : s'.Valid
  healthy : s'.poisoned = false
  opened : s'.OpenedSinceEpoch
  own : s'.jobs.get? x.job.id = some ⟨x.rank, job⟩
  others : ∀ id, id ≠ x.job.id → s'.jobs.get? id = s.jobs.get? id

/-- The job of `x` is in processing, and the rest of the store is as it was. -/
structure Volatile.Claimed (x : Ranked) (job : Job) (s s' : Volatile) : Prop
    extends Differs x job s s' where
  busy : job.status = .processing
  named : job.id = x.job.id

section
variable {x : Ranked} {job job' : Job} {s s' : Volatile}

theorem Volatile.Differs.update (h : s.Differs x job s') (hid : job'.id = x.job.id) :
    s.Differs x job' (s'.update x.job.id ⟨x.rank, job⟩ job') := by
  refine ⟨h.valid.update h.own hid, h.healthy, h.opened, ?_, fun id hne => ?_⟩
  · rw [Volatile.update, Keyed.get?_put, if_pos rfl]
  · rw [Volatile.update, Keyed.get?_put, if_neg (Ne.symm hne)]
    exact h.others id hne

theorem Volatile.Claimed.get? (h : s.Claimed x job s') : s'.jobs.get? job.id = some ⟨x.rank, job⟩ :=
  h.named ▸ h.own

end

/-- Moves from a phase end the cycle, and the job of `x` is settled then. -/
def Cycle.Settles (c : Cycle) (rules : Rules) (handler : Job → Outcome HandlerResult)
    (now : Millis) (x : Ranked) (s : Volatile) (n : ℕ) (p : Phase) (s₁ : Volatile) : Prop :=
  ∃ job s', c.moves (store rules) handler now n p s₁ = (.finished true, s') ∧
    job.IsSettled now ∧ s.Differs x job s'

namespace Cycle.Settles

variable {c : Cycle} {rules : Rules} {handler : Job → Outcome HandlerResult} {now : Millis}
  {x : Ranked} {job : Job} {s s₁ : Volatile}

/-- A claim gets the job of `x` if it is the next one, and has room for one more attempt. -/
theorem claimed_of_next (hs : s.Valid) (healthy : s.poisoned = false)
    (ho : s.OpenedSinceEpoch) {queues : QueueSet}
    (hx : s.next? now queues = some x) (room : x.job.attempts.toInt < Int32.maxValue.toInt)
    (worker : String) :
    ∃ n : Int32, ∃ s₁, n.toInt = x.job.attempts.toInt + 1 ∧
      dequeue now worker queues s = (.ok (some (x.job.taken now worker n)), s₁) ∧
      s.Claimed x (x.job.taken now worker n) s₁ := by
  have hmax : Int32.maxValue.toInt = 0x7fffffff := by decide
  have hle := Int32.le_toInt x.job.attempts
  cases hn : succ32? x.job.attempts with
  | none =>
    rw [succ32?, fit32?_eq_none_iff] at hn
    omega
  | some n =>
    refine ⟨n, s.update x.job.id x (x.job.taken now worker n), toInt_of_fit32? hn, ?_, ?_⟩
    · rw [dequeue_of_next healthy hx, hn]
    · refine ⟨⟨hs.update (hs.get?_of_next? hx) rfl, healthy, ho, ?_, fun id hne => ?_⟩, rfl, rfl⟩
      · rw [Volatile.update, Keyed.get?_put, if_pos rfl]
      · rw [Volatile.update, Keyed.get?_put, if_neg (Ne.symm hne)]

variable (h₀ : 0 ≤ now.toInt) (h₁ : now < Int64.maxValue) (made : rules.retry.Made)
  (hc : s.Claimed x job s₁)

include h₁ made hc in
theorem reporting (n : ℕ) (report : Report) :
    c.Settles rules handler now x s (n + 1) (.reporting job.id report) s₁ := by
  cases report with
  | complete result =>
    refine ⟨job.finished now result, _, ?_, .inl rfl, hc.update hc.named⟩
    have hask : (store rules).ask now (.complete job.id result) s₁ = _ :=
      complete_of_busy hc.healthy hc.get? hc.busy now result
    rw [moves_of_due rfl hask, ← hc.named]
    exact moves_of_over rfl n _
  | fail message =>
    refine ⟨job.failing rules.retry now message, _, ?_, job.settled_failing made h₁ message,
      hc.update (by rw [Job.failing_id, hc.named])⟩
    have hask : (store rules).ask now (.fail job.id message) s₁ = _ :=
      fail_of_busy hc.healthy hc.get? hc.busy rules.retry now message
    rw [moves_of_due rfl hask, ← hc.named]
    exact moves_of_over rfl n _

include h₀ h₁ made hc in
theorem counting (room : s₁.counted? now (tenant job) ≠ some Int64.maxValue) (n : ℕ)
    (result : Option Payload) :
    c.Settles rules handler now x s (n + 2) (.counting job result) s₁ := by
  obtain ⟨w, hw⟩ := hc.opened.record? h₀ room
  have hask : (store rules).ask now (.record (tenant job)) s₁ =
      (.ok (), { s₁ with windows := s₁.windows.put (tenant job) w }) := by
    show record now (tenant job) s₁ = _
    rw [record_of_healthy hc.healthy, hw]
  have hclaimed : s.Claimed x job { s₁ with windows := s₁.windows.put (tenant job) w } := by
    refine ⟨⟨⟨hc.valid.distinct, hc.valid.id_eq, hc.valid.ascending, hc.valid.rank_lt⟩, hc.healthy,
      ?_, hc.own, hc.others⟩, hc.busy, hc.named⟩
    have := hc.opened.ask h₀ rules (.record (tenant job))
    rwa [show ask rules now (.record (tenant job)) s₁ = _ from hask] at this
  have hreport : c.Settles rules handler now x s (n + 1) (.reporting job.id (.complete result)) _ :=
    reporting h₁ made hclaimed n (.complete result)
  obtain ⟨job', s', hm, hj⟩ := hreport
  exact ⟨job', s', (moves_of_due rfl hask (n + 1)).trans hm, hj⟩

include h₀ h₁ made hc in
theorem running (room : c.rateLimiting = true → s₁.counted? now (tenant job) ≠ some Int64.maxValue)
    (n : ℕ) : c.Settles rules handler now x s (n + 3) (.running job) s₁ := by
  suffices h : c.Settles rules handler now x s (n + 2) (c.afterRun job (handler job)) s₁ from h
  unfold afterRun
  split
  · split
    · exact counting h₀ h₁ made hc (room ‹_›) n _
    · exact reporting h₁ made hc (n + 1) _
  · exact reporting h₁ made hc (n + 1) _

include h₀ h₁ made hc in
theorem admitted (room : c.rateLimiting = true → s₁.counted? now (tenant job) ≠ some Int64.maxValue)
    (n : ℕ) : c.Settles rules handler now x s (n + 3) (c.admitted job) s₁ := by
  unfold Cycle.admitted
  split
  · exact running h₀ h₁ made hc room n
  · exact reporting h₁ made hc (n + 2) _

include h₀ h₁ made hc in
/-- Who is admitted has room for the count. -/
theorem admitting (n : ℕ) : c.Settles rules handler now x s (n + 4) (.admitting job) s₁ := by
  obtain ⟨k, hk⟩ := hc.opened.counted? h₀ (tenant job)
  have hask : (store rules).ask now (.canProcess (tenant job)) s₁ = _ :=
    canProcess_of_healthy hc.healthy rules now (tenant job)
  rw [hk] at hask
  suffices h : c.Settles rules handler now x s (n + 3) (c.afterAdmission job
      (.ok ((s₁.limit rules (tenant job)).admits k (clamp (s₁.processing (tenant job)))))) s₁ by
    obtain ⟨job', s', hm, hj⟩ := h
    exact ⟨job', s', (moves_of_due rfl hask (n + 3)).trans hm, hj⟩
  cases ha : (s₁.limit rules (tenant job)).admits k (clamp (s₁.processing (tenant job))) with
  | false => exact reporting h₁ made hc (n + 2) _
  | true =>
    refine admitted h₀ h₁ made hc (fun _ hfull => ?_) n
    rw [hk, Option.some.injEq] at hfull
    rw [RateLimit.admits, Bool.and_eq_true, decide_eq_true_eq, hfull, Int64.lt_iff_toInt_lt] at ha
    have hlt := Int64.toInt_lt (s₁.limit rules (tenant job)).perHour
    have hmax : Int64.maxValue.toInt = 0x7fffffffffffffff := by decide
    omega

include h₀ h₁ made in
/-- A cycle that meets a job to claim settles it. -/
theorem claiming (hs : s.Valid) (healthy : s.poisoned = false) (ho : s.OpenedSinceEpoch)
    (hx : s.next? now c.queues = some x) (room : x.job.attempts.toInt < Int32.maxValue.toInt) :
    c.Settles rules handler now x s 5 .claiming s ∧
      ∃ n : Int32, n.toInt = x.job.attempts.toInt + 1 ∧
        (dequeue now c.worker c.queues s).1 = .ok (some (x.job.taken now c.worker n)) := by
  obtain ⟨n, s₁, hn, hd, hc⟩ := claimed_of_next hs healthy ho hx room c.worker
  refine ⟨?_, n, hn, by rw [hd]⟩
  suffices h : c.Settles rules handler now x s 4
      (c.afterClaim (.ok (some (x.job.taken now c.worker n)))) s₁ by
    obtain ⟨job', s', hm, hj⟩ := h
    have hask : (store rules).ask now (.dequeue c.worker c.queues) s = _ := hd
    exact ⟨job', s', (moves_of_due rfl hask 4).trans hm, hj⟩
  unfold afterClaim
  dsimp only
  split
  · exact admitting h₀ h₁ made hc 0
  · exact admitted h₀ h₁ made hc (fun h => absurd h ‹_›) 1

end Cycle.Settles

/-! ## One cycle after the other -/

namespace Volatile

/-- The jobs that are due in a served queue. -/
def due (now : Millis) (queues : QueueSet) (s : Volatile) : List Ranked :=
  s.stored.filter fun x => x.job.isEligible now && queues.accepts x.job.queue

/-- `s'` is what cycles made of `s` that have worked on `past` and find `rest` due. -/
structure WorkedOff (now : Millis) (queues : QueueSet) (s : Volatile) (past rest : List Ranked)
    (s' : Volatile) : Prop where
  valid : s'.Valid
  healthy : s'.poisoned = false
  opened : s'.OpenedSinceEpoch
  due : rest.Perm (s'.due now queues)
  sorted : rest.Pairwise fun x y => x.place < y.place
  room : ∀ x ∈ rest, x.job.attempts.toInt < Int32.maxValue.toInt
  settled : ∀ x ∈ past, ∃ job, s'.jobs.get? x.job.id = some ⟨x.rank, job⟩ ∧ job.IsSettled now
  others : ∀ id, (∀ x ∈ past, x.job.id ≠ id) → s'.jobs.get? id = s.jobs.get? id

section
variable {rules : Rules} {now : Millis} {queues : QueueSet} {s s₁ s₂ : Volatile} {x : Ranked}
  {past rest : List Ranked}

theorem mem_due (hs : s.Valid) : x ∈ s.due now queues ↔
    s.jobs.get? x.job.id = some x ∧ x.job.isEligible now = true ∧
      queues.accepts x.job.queue = true := by
  rw [due, List.mem_filter, hs.mem_stored, Bool.and_eq_true]

theorem nodup_due (hs : s.Valid) : (s.due now queues).Nodup :=
  ((hs.ascending.filter _).imp fun h he => by rw [he] at h; exact lt_irrefl _ h)

theorem exists_order (hs : s.Valid) (now : Millis) (queues : QueueSet) :
    ∃ order : List Ranked, order.Perm (s.due now queues) ∧
      order.Pairwise fun x y => x.place < y.place := by
  have hdue : Ranked.Distinct (s.due now queues) := (hs.ascending.filter _).distinct
  have hperm := (s.due now queues).mergeSort_perm fun a b => !b.isBefore a
  have hpairs := Ranked.pairwise_inOrder (s.due now queues)
  refine ⟨_, hperm, (hpairs.and (hperm.nodup_iff.2 (nodup_due hs))).imp_of_mem ?_⟩
  intro a b ha hb h
  refine lt_of_le_of_ne h.1 fun he => h.2 ?_
  exact hdue a (hperm.subset ha) b (hperm.subset hb) (Ranked.rank_eq_of_place he)

/-- The first of those that are due is the next one. -/
theorem WorkedOff.next?_eq (h : WorkedOff now queues s past (x :: rest) s₁) :
    s₁.next? now queues = some x := by
  refine (Ranked.first?_eq_some_iff (h.valid.ascending.filter _).distinct).2
    ⟨h.due.subset List.mem_cons_self, fun y hy => ?_⟩
  rcases List.mem_cons.1 (h.due.symm.subset hy) with rfl | hy
  · exact le_rfl
  · exact (List.rel_of_pairwise_cons h.sorted hy).le

theorem WorkedOff.next?_eq_none (h : WorkedOff now queues s past [] s₁) :
    s₁.next? now queues = none :=
  Ranked.first?_eq_none_iff.2 h.due.symm.eq_nil

/-- A settled job takes itself out of those that are due. -/
theorem WorkedOff.step (h : WorkedOff now queues s past (x :: rest) s₁) {job : Job}
    (settled : job.IsSettled now) (hd : s₁.Differs x job s₂) :
    WorkedOff now queues s (past ++ [x]) rest s₂ := by
  obtain ⟨hx, he, hq⟩ := (mem_due h.valid).1 (h.due.subset List.mem_cons_self)
  have hnodup : (x :: rest).Nodup := h.due.nodup_iff.2 (nodup_due h.valid)
  -- what was worked on is not due any more
  have hpast : ∀ y ∈ past, y.job.id ≠ x.job.id := by
    intro y hy hid
    obtain ⟨job', hj, hsettled⟩ := h.settled y hy
    rw [hid, hx] at hj
    rw [Option.some.inj hj, Job.not_eligible_of_settled hsettled] at he
    cases he
  refine
    { valid := hd.valid, healthy := hd.healthy, opened := hd.opened, due := ?due
      sorted := h.sorted.of_cons, room := fun y hy => h.room y (List.mem_cons_of_mem _ hy)
      settled := ?settled, others := ?others }
  case due =>
    rw [List.perm_ext_iff_of_nodup hnodup.of_cons (nodup_due hd.valid)]
    intro y
    rw [mem_due hd.valid]
    constructor
    · intro hy
      obtain ⟨hy', he', hq'⟩ := (mem_due h.valid).1 (h.due.subset (List.mem_cons_of_mem _ hy))
      refine ⟨(hd.others _ fun hid => ?_).trans hy', he', hq'⟩
      rw [hid, hx] at hy'
      rw [← Option.some.inj hy'] at hy
      exact (List.nodup_cons.1 hnodup).1 hy
    · rintro ⟨hy', he', hq'⟩
      have hid : y.job.id ≠ x.job.id := by
        intro hid
        rw [hid, hd.own] at hy'
        rw [← Option.some.inj hy', Job.not_eligible_of_settled settled] at he'
        cases he'
      have hmem := h.due.symm.subset ((mem_due h.valid).2 ⟨(hd.others _ hid) ▸ hy', he', hq'⟩)
      rcases List.mem_cons.1 hmem with rfl | hy
      · exact absurd rfl hid
      · exact hy
  case settled =>
    intro y hy
    rcases List.mem_append.1 hy with hy | hy
    · obtain ⟨job', hj, hsettled⟩ := h.settled y hy
      exact ⟨job', (hd.others _ (hpast y hy)).trans hj, hsettled⟩
    · obtain rfl := List.mem_singleton.1 hy
      exact ⟨job, hd.own, settled⟩
  case others =>
    intro id hid
    rw [hd.others id fun he => hid x (by simp) he.symm]
    exact h.others id fun y hy => hid y (List.mem_append_left _ hy)

end

section
variable (limiting : Bool) (handlers : Registry (Job → Outcome HandlerResult)) (rules : Rules)
  (now : Millis) (workers : ℕ → String) (queues : QueueSet) (s : Volatile)

/-- The store after a number of cycles. -/
def afterCycles : ℕ → Volatile
  | 0 => s
  | n + 1 => (processNext limiting handlers (store rules) now (workers n) queues (afterCycles n)).2

/-- What the next cycle answers. -/
def answerOf (n : ℕ) : Option Bool :=
  (processNext limiting handlers (store rules) now (workers n) queues
    (afterCycles limiting handlers rules now workers queues s n)).1

/-- The jobs that the next cycle claims. -/
def claimsOf (n : ℕ) : List Job :=
  (nextActs limiting handlers (store rules) now (workers n) queues
    (afterCycles limiting handlers rules now workers queues s n)).filterMap Act.claimed?

variable {limiting handlers rules now workers queues s} {x : Ranked} {past rest : List Ranked} {n : ℕ}

/-- A cycle works on the first of those that are due. -/
theorem WorkedOff.cycle (h₀ : 0 ≤ now.toInt) (h₁ : now < Int64.maxValue) (made : rules.retry.Made)
    (h : WorkedOff now queues s past (x :: rest)
      (afterCycles limiting handlers rules now workers queues s n)) :
    WorkedOff now queues s (past ++ [x]) rest
        (afterCycles limiting handlers rules now workers queues s (n + 1)) ∧
      answerOf limiting handlers rules now workers queues s n = some true ∧
      ∃ k : Int32, k.toInt = x.job.attempts.toInt + 1 ∧
        claimsOf limiting handlers rules now workers queues s n = [x.job.taken now (workers n) k] := by
  generalize hs₁ : afterCycles limiting handlers rules now workers queues s n = s₁ at h
  obtain ⟨hsettles, k, hk, hclaim⟩ :
      (handlers.cycle limiting (workers n) queues).Settles rules handlers.outcome now x s₁ 5
        .claiming s₁ ∧ ∃ k : Int32, k.toInt = x.job.attempts.toInt + 1 ∧
          (dequeue now (workers n) queues s₁).1 = .ok (some (x.job.taken now (workers n) k)) :=
    Cycle.Settles.claiming h₀ h₁ made h.valid h.healthy h.opened h.next?_eq
      (h.room x List.mem_cons_self)
  obtain ⟨job, s₂, hm, settled, hd⟩ := hsettles
  have hrun : (handlers.cycle limiting (workers n) queues).run (store rules) handlers.outcome now s₁ =
      (.finished true, s₂) := hm
  have hnext : processNext limiting handlers (store rules) now (workers n) queues s₁ =
      (some true, s₂) := by
    rw [processNext_eq, hrun]
  refine ⟨?_, ?_, k, hk, ?_⟩
  · rw [afterCycles, hs₁, hnext]
    exact h.step settled hd
  · rw [answerOf, hs₁, hnext]
  · obtain ⟨job', admission, counted, reported, hjob, hacts⟩ :=
      nextActs_of_claimed (congrArg Prod.fst hrun)
    obtain rfl : x.job.taken now (workers n) k = job' :=
      Option.some.inj (Except.ok.inj (hclaim.symm.trans hjob))
    rw [claimsOf, hs₁, hacts, Cycle.claims_errand]

/-- Nothing is due any more. -/
theorem WorkedOff.idle
    (h : WorkedOff now queues s past [] (afterCycles limiting handlers rules now workers queues s n)) :
    afterCycles limiting handlers rules now workers queues s (n + 1) =
        afterCycles limiting handlers rules now workers queues s n ∧
      answerOf limiting handlers rules now workers queues s n = some false ∧
      claimsOf limiting handlers rules now workers queues s n = [] := by
  generalize hs₁ : afterCycles limiting handlers rules now workers queues s n = s₁ at h
  have hask : (store rules).ask now (.dequeue (workers n) queues) s₁ = (.ok none, s₁) :=
    dequeue_of_none h.healthy h.next?_eq_none (workers n)
  have hrun : (handlers.cycle limiting (workers n) queues).run (store rules) handlers.outcome now s₁ =
      (.finished false, s₁) := by
    rw [Cycle.run, Cycle.moves_of_due rfl hask 4]
    exact Cycle.moves_of_over rfl 4 s₁
  have hnext : processNext limiting handlers (store rules) now (workers n) queues s₁ =
      (some false, s₁) := by
    rw [processNext_eq, hrun]
  refine ⟨?_, ?_, ?_⟩
  · rw [afterCycles, hs₁, hnext]
  · rw [answerOf, hs₁, hnext]
  · rw [claimsOf, hs₁, (nextActs_of_unclaimed (congrArg Prod.fst hrun)).2]
    show List.filterMap _ [Act.asked (.dequeue (workers n) queues) ((store rules).ask now _ s₁).1] = []
    rw [hask]
    rfl

/-- After as many cycles as there were jobs due, one for each of them in the order of their places,
    nothing is due. -/
theorem workedOff_afterCycles (h₀ : 0 ≤ now.toInt) (h₁ : now < Int64.maxValue)
    (made : rules.retry.Made) {order : List Ranked} (start : WorkedOff now queues s [] order s)
    {i : ℕ} (hi : i ≤ order.length) :
    WorkedOff now queues s (order.take i) (order.drop i)
      (afterCycles limiting handlers rules now workers queues s i) := by
  induction i with
  | zero => exact start
  | succ i ih =>
    have h := ih (Nat.le_of_succ_le hi)
    rw [List.drop_eq_getElem_cons hi] at h
    rw [List.take_succ_eq_append_getElem hi]
    exact (h.cycle h₀ h₁ made).1

/-- And so it stays. -/
theorem workedOff_afterAll (h₀ : 0 ≤ now.toInt) (h₁ : now < Int64.maxValue)
    (made : rules.retry.Made) {order : List Ranked} (start : WorkedOff now queues s [] order s)
    {i : ℕ} (hi : order.length ≤ i) :
    WorkedOff now queues s order [] (afterCycles limiting handlers rules now workers queues s i) := by
  induction i, hi using Nat.le_induction with
  | base =>
    have h : WorkedOff now queues s (order.take order.length) (order.drop order.length)
        (afterCycles limiting handlers rules now workers queues s order.length) :=
      workedOff_afterCycles h₀ h₁ made start le_rfl
    rwa [List.take_length, List.drop_length] at h
  | succ i hi ih => exact ih.idle.1 ▸ ih

/-- **A worker works off what is due.**  At one reading of the clock it claims the jobs that are due
    in the served queues, each of them once and in the order of their places, and then nothing; by
    then they are finished or wait for a later time, and all other jobs are as they were.  That
    windows have room excludes no run of a machine: it takes `2 ^ 63 - 1` counted jobs to fill one
    (`Trace.hasRoom`). -/
theorem backlog_is_worked_off {h : List Event} (hist : History rules h s)
    (readings : ∀ e ∈ h, 0 ≤ e.now.toInt) (counts : ∀ e ∈ h, e.before.HasRoom)
    (attempts : ∀ x ∈ s.stored, x.job.attempts.toInt < Int32.maxValue.toInt)
    (made : rules.retry.Made) (h₀ : 0 ≤ now.toInt) (h₁ : now < Int64.maxValue) :
    ∃ order : List Ranked, order.Perm (s.due now queues) ∧
      order.Pairwise (fun x y => x.place < y.place) ∧
      (∀ i, answerOf limiting handlers rules now workers queues s i =
        some (decide (i < order.length))) ∧
      (∀ i x, order[i]? = some x → ∃ k : Int32, k.toInt = x.job.attempts.toInt + 1 ∧
        claimsOf limiting handlers rules now workers queues s i =
          [x.job.taken now (workers i) k]) ∧
      (∀ i, order.length ≤ i → claimsOf limiting handlers rules now workers queues s i = []) ∧
      ∀ i, order.length ≤ i →
        (∀ x ∈ order, ∃ job,
          (afterCycles limiting handlers rules now workers queues s i).jobs.get? x.job.id =
            some ⟨x.rank, job⟩ ∧ job.IsSettled now) ∧
        ∀ id, (∀ x ∈ order, x.job.id ≠ id) →
          (afterCycles limiting handlers rules now workers queues s i).jobs.get? id =
            s.jobs.get? id := by
  obtain ⟨order, hperm, hsorted⟩ := exists_order hist.valid now queues
  have start : WorkedOff now queues s [] order s :=
    { valid := hist.valid, healthy := hist.healthy readings counts
      opened := (hist.sinceEpoch readings).opened, due := hperm, sorted := hsorted
      room := fun x hx => attempts x (List.mem_filter.1 (hperm.subset hx)).1
      settled := by simp, others := fun _ _ => rfl }
  have hcycle : ∀ {i : ℕ} (hi : i < order.length),
      answerOf limiting handlers rules now workers queues s i = some true ∧
        ∃ k : Int32, k.toInt = order[i].job.attempts.toInt + 1 ∧
          claimsOf limiting handlers rules now workers queues s i =
            [order[i].job.taken now (workers i) k] := by
    intro i hi
    have h : WorkedOff now queues s (order.take i) (order.drop i)
        (afterCycles limiting handlers rules now workers queues s i) :=
      workedOff_afterCycles h₀ h₁ made start (Nat.le_of_lt hi)
    rw [List.drop_eq_getElem_cons hi] at h
    exact (h.cycle h₀ h₁ made).2
  have hend : ∀ i, order.length ≤ i → WorkedOff now queues s order []
      (afterCycles limiting handlers rules now workers queues s i) :=
    fun i hi => workedOff_afterAll h₀ h₁ made start hi
  refine ⟨order, hperm, hsorted, ?_, ?_, fun i hi => (hend i hi).idle.2.2,
    fun i hi => ⟨(hend i hi).settled, (hend i hi).others⟩⟩
  · intro i
    by_cases hi : i < order.length
    · rw [(hcycle hi).1, decide_eq_true hi]
    · rw [((hend i (Nat.le_of_not_lt hi)).idle).2.1, decide_eq_false hi]
  · intro i x hx
    obtain ⟨hi, rfl⟩ := List.getElem?_eq_some_iff.1 hx
    exact (hcycle hi).2

end

/-- Two jobs of a tenant that may run one job in an hour. -/
def oneTooMany : List Call :=
  [⟨0, .setLimit ⟨"o", "q"⟩ ⟨1, 10⟩⟩, ⟨0, .enqueue "a" ⟨"q", "t", "o", .empty, {}⟩⟩,
    ⟨0, .enqueue "b" ⟨"q", "t", "o", .empty, { priority := 1 }⟩⟩]

/-- The first job runs, the other one is put off. -/
theorem backlog_is_worked_off_oneTooMany :
    let s := (replay .default oneTooMany).2
    let answers := answerOf true easyHandlers .default 5 (fun _ => "w") .any s
    let after := afterCycles true easyHandlers .default 5 (fun _ => "w") .any s 2
    (answers 0 = some true ∧ answers 1 = some true ∧ answers 2 = some false) ∧
      ∃ job, after.jobs.get? "a" = some ⟨0, job⟩ ∧ job.IsSettled 5 := by
  intro s answers after
  have hist : History .default (replay .default oneTooMany).1 s := .replay (by decide)
  have hroom : ∀ e ∈ (replay .default oneTooMany).1, e.before.HasRoom :=
    hist.trace.hasRoom (by decide) (by decide)
  have hdue : s.due 5 .any = [⟨0, (Job.new "a" 0 "q" "t" "o" .empty)⟩,
      ⟨1, { Job.new "b" 0 "q" "t" "o" .empty with priority := 1 }⟩] := by decide
  obtain ⟨order, hperm, -, hanswers, -, -, hend⟩ :=
    @backlog_is_worked_off true easyHandlers .default 5 (fun _ => "w") .any s _ hist (by decide)
      hroom (by decide) (.ofBase 60000) (by decide) (by decide)
  rw [hdue] at hperm
  have hlength : order.length = 2 := hperm.length_eq
  rw [hlength] at hanswers hend
  obtain ⟨job, hjob, hsettled⟩ := (hend 2 (Nat.le_refl 2)).1 ⟨0, Job.new "a" 0 "q" "t" "o" .empty⟩
    (hperm.symm.subset List.mem_cons_self)
  exact ⟨⟨hanswers 0, hanswers 1, hanswers 2⟩, job, hjob, hsettled⟩

end Volatile

end JobQueue
