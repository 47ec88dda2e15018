/-
  Jobs that are tried again.

  A failed attempt that is not the last one puts its job back for later
  (`Retry`); the retries of a job are those of its rank.  What is stored of a
  job agrees with its retries so far (`Retried`): it counts at least as many
  attempts as they did, it is due when the last one said, and it is in
  processing only after the clock has shown that time.  So no claim hands a job
  out before its retry is due, later retries do not wait less, and on a clock
  that goes forward they are due later and later (`retries_wait`).
-/
import JobQueue.Proofs.Store.Backoff
import JobQueue.Proofs.Store.Shape
import JobQueue.Proofs.Store.Trace

namespace JobQueue.Volatile

/-! ## Retries -/

/-- A job that was put back after a failed attempt, as it was before and after. -/
structure Retry where
  now : Millis
  before : Ranked
  after : Ranked

/-- When the next attempt is due. -/
def Retry.due (p : Retry) : Millis := p.after.job.scheduledAt

/-- The attempts that were counted when the last one of them failed. -/
def Retry.attempts (p : Retry) : Int32 := p.before.job.attempts

/-- The retry that the report of a failed attempt led to. -/
def Event.delayed? (e : Event) : Option Retry :=
  match e.request with
  | .fail id _ =>
    match e.before.jobs.get? id, e.after.jobs.get? id with
    | some x, some y =>
      if x.job.status = .processing ∧ y.job.status = .pending then some ⟨e.now, x, y⟩ else none
    | _, _ => none
  | _ => none

/-- The retries of the job with a rank, the last one first. -/
def retries (rank : ℕ) (h : List Event) : List Retry :=
  (h.filterMap Event.delayed?).filter (·.before.rank = rank)

section
variable {rules : Rules} {h : List Event} {s s' : Volatile} {now : Millis} {r : Request}
  {a : Except Failure r.Answer} {e : Event} {p : Retry} {rank : ℕ} {id : String} {x y : Ranked}

/-- A retry is read off the report of a failed attempt. -/
theorem Event.of_delayed? (hp : e.delayed? = some p) :
    p.now = e.now ∧ ∃ id message, e.request = .fail id message ∧
      e.before.jobs.get? id = some p.before ∧ e.after.jobs.get? id = some p.after ∧
      p.before.job.status = .processing ∧ p.after.job.status = .pending := by
  unfold delayed? at hp
  split at hp
  · rename_i id message hr
    split at hp
    · rename_i x y hx hy
      split at hp
      · rename_i hst
        cases hp
        exact ⟨rfl, id, message, hr, hx, hy, hst⟩
      · cases hp
    · cases hp
  · cases hp

/-- The report of a failed attempt puts its job back for the time after the delay of the policy. -/
theorem retry_of_ask (hs : s.Tidy) (hp : (Event.ask rules now r s).delayed? = some p) :
    p.now = now ∧ p.before ∈ s.stored ∧ p.before.job.status = .processing ∧
      p.due = addClamped now (rules.retry.backoff p.attempts) := by
  obtain ⟨hnow, id, message, hr, hx, hy, hbusy, hwaits⟩ := Event.of_delayed? hp
  change r = .fail id message at hr
  subst hr
  change s.jobs.get? id = some p.before at hx
  change (ask rules now (.fail id message) s).2.jobs.get? id = some p.after at hy
  refine ⟨hnow, Keyed.mem_values hx, hbusy, ?_⟩
  have hstep : Step rules now s (.fail id message) (ask rules now (.fail id message) s).1
      (ask rules now (.fail id message) s).2 := step_ask rfl
  have fate := hstep.fate_of_tidy hs id fun sub ha => by cases ha
  rw [hx, hy] at fate
  obtain ⟨_, before, after⟩ := p
  generalize (ask rules now (.fail id message) s).1 = a at fate
  simp only at fate hbusy hwaits
  cases fate with
  | same => rw [hbusy] at hwaits; cases hwaits
  | retried => rfl
  | failed => cases hwaits

theorem retries_cons_of_eq (hp : e.delayed? = some p) (hr : p.before.rank = rank) :
    retries rank (e :: h) = p :: retries rank h := by
  simp [retries, hp, hr]

theorem retries_cons_of_ne (hne : ∀ p, e.delayed? = some p → p.before.rank ≠ rank) :
    retries rank (e :: h) = retries rank h := by
  cases hp : e.delayed? with
  | none => simp [retries, hp]
  | some p => simp [retries, hp, hne p hp]

/-- A job that was not put back gets no retry. -/
theorem retries_cons_of_kept (hs : s.Tidy) (hx : s.jobs.get? id = some x)
    (hy : s'.jobs.get? id = some y)
    (hkept : ∀ message, r = .fail id message → x.job.status = .processing →
      y.job.status ≠ .pending) :
    retries x.rank (⟨now, r, a, s, s'⟩ :: h) = retries x.rank h := by
  refine retries_cons_of_ne fun p hp hrank => ?_
  obtain ⟨-, id', message, hr, hx', hy', hbusy, hwaits⟩ := Event.of_delayed? hp
  have hbefore : p.before = x :=
    hs.apart _ (Keyed.mem_values hx') x (Keyed.mem_values hx) hrank
  obtain rfl : id' = id := by rw [← hs.id_eq hx', hbefore, hs.id_eq hx]
  have hafter : p.after = y := Option.some.inj (hy'.symm.trans hy)
  exact hkept message hr (hbefore ▸ hbusy) (hafter ▸ hwaits)

/-- Nothing was put back of the jobs that are still to come. -/
theorem Trace.retries_eq_nil (trace : Trace rules h s) (hr : s.nextRank ≤ rank) :
    retries rank h = [] := by
  refine List.filter_eq_nil_iff.2 fun p hp heq => ?_
  obtain ⟨e, he, hp⟩ := List.mem_filterMap.1 hp
  obtain ⟨-, id, message, -, hx, -⟩ := Event.of_delayed? hp
  have hlt := trace.rank_lt he (Keyed.mem_values hx)
  rw [of_decide_eq_true heq] at hlt
  exact absurd hlt (not_lt.2 hr)

/-! ## A job and its retries -/

/-- A stored job agrees with the retries of its rank. -/
structure Retried (h : List Event) (x : Ranked) : Prop where
  attempts : ∀ p ∈ retries x.rank h, p.attempts ≤ x.job.attempts
  last : ∀ p, (retries x.rank h).head? = some p → p.due = x.job.scheduledAt
  later : Steady h → ∀ p ∈ retries x.rank h, p.due ≤ x.job.scheduledAt
  shown : x.job.status = .processing → ∃ t ∈ readings h, x.job.scheduledAt ≤ t

/-- What is due now stays as it is, but for the attempts, which may be one more. -/
theorem Retried.keep (hx : Retried h x) (hret : retries y.rank (e :: h) = retries x.rank h)
    (attempts : x.job.attempts ≤ y.job.attempts) (due : y.job.scheduledAt = x.job.scheduledAt)
    (shown : y.job.status = .processing → x.job.status = .processing ∨ x.job.scheduledAt ≤ e.now) :
    Retried (e :: h) y where
  attempts p hp := Int32.le_trans (hx.attempts p (hret ▸ hp)) attempts
  last p hp := by
    rw [due]
    exact hx.last p (hret ▸ hp)
  later hs p hp := by
    rw [due]
    exact hx.later hs.past p (hret ▸ hp)
  shown hbusy := by
    rw [due]
    rcases shown hbusy with hold | hle
    · obtain ⟨t, ht, hle⟩ := hx.shown hold
      exact ⟨t, List.mem_cons_of_mem _ ht, hle⟩
    · exact ⟨e.now, List.mem_cons_self, hle⟩

/-- The clock has shown the times at which a job in processing was due. -/
theorem Retried.due_le (hx : Retried h x) (hbusy : x.job.status = .processing)
    (hs : Steady (e :: h)) : ∀ p ∈ retries x.rank h, p.due ≤ e.now := by
  intro p hp
  obtain ⟨t, ht, hle⟩ := hx.shown hbusy
  exact Int64.le_trans (hx.later hs.past p hp) (Int64.le_trans hle (hs.last ht))

theorem le_addClamped (now : Millis) {delay : Millis} (hdelay : 0 ≤ delay.toInt) :
    now ≤ addClamped now delay := by
  have hlt := Int64.toInt_lt now
  have hm : Int64.maxValue.toInt = 0x7fffffffffffffff := by decide
  rw [Int64.le_iff_toInt_le, toInt_addClamped_of_nonneg now hdelay, hm]
  omega

/-- **Every stored job agrees with its retries.** -/
theorem Trace.retried (trace : Trace rules h s) (made : rules.retry.Made) (hx : x ∈ s.stored) :
    Retried h x := by
  refine trace.each_job (P := Retried) ?_ ?_ hx
  · intro h s e id sub past hbefore hacc
    have hnil : retries s.nextRank (e :: h) = [] := by
      rw [retries_cons_of_ne, past.retries_eq_nil le_rfl]
      intro p hp
      obtain ⟨-, id', message, hr, -⟩ := Event.of_delayed? hp
      cases hr.symm.trans (Request.eq_enqueue_of_accepted? hacc)
    constructor <;> simp [hnil, Submission.toJob, Job.new]
  · intro h s s' id now r a x y past hx hy hold fate
    have hs := past.tidy
    have hret (hkept : ∀ message, r = .fail id message → x.job.status = .processing →
        y.job.status ≠ .pending) : retries x.rank (⟨now, r, a, s, s'⟩ :: h) = retries x.rank h :=
      retries_cons_of_kept hs hx hy hkept
    cases fate with
    | same =>
      refine hold.keep (hret fun _ _ hbusy => ?_) Int32.le_rfl rfl .inl
      rw [hbusy]
      decide
    | @claimed _ _ _ n pending due count =>
      have hcount : n.toInt = x.job.attempts.toInt + 1 := toInt_of_fit32? count
      have hmore : x.job.attempts ≤ n := Int32.le_iff_toInt_le.2 (by omega)
      exact hold.keep (hret fun _ hr => by cases hr) hmore rfl fun _ => .inr due
    | completed | requeued =>
      exact hold.keep (hret fun _ hr => by cases hr) Int32.le_rfl rfl fun hst => by cases hst
    | failed =>
      exact hold.keep (hret fun _ _ _ hst => by cases hst) Int32.le_rfl rfl fun hst => by cases hst
    | @retried message _ busy more =>
      have hp : Event.delayed? ⟨now, .fail id message, .ok (), s, s'⟩ = some ⟨now, x, x.rank,
          x.job.delayed (addClamped now (rules.retry.backoff x.job.attempts)) message⟩ := by
        simp [Event.delayed?, hx, hy, busy, Job.delayed]
      have hcons := retries_cons_of_eq (h := h) hp rfl
      refine ⟨fun p hp => ?_, fun p hp => ?_, fun hsteady p hp => ?_, fun hst => by cases hst⟩
      · rcases List.mem_cons.1 (hcons ▸ hp) with rfl | hp
        · exact Int32.le_rfl
        · exact hold.attempts p hp
      · have hhead := hcons ▸ hp
        obtain rfl := Option.some.inj hhead
        rfl
      · rcases List.mem_cons.1 (hcons ▸ hp) with rfl | hp
        · exact Int64.le_rfl
        · exact Int64.le_trans (hold.due_le busy hsteady p hp)
            (le_addClamped now (made.backoff_pos _).le)

/-! ## Runs -/

/-- The attempts of later retries are not fewer, and on a clock that goes forward each is due after
    those before it. -/
theorem Trace.retries_pairwise (trace : Trace rules h s) (made : rules.retry.Made) (rank : ℕ) :
    (retries rank h).Pairwise fun later earlier => earlier.attempts ≤ later.attempts ∧
      (Steady h → later.now < Int64.maxValue → earlier.due < later.due) := by
  induction trace with
  | start => exact List.Pairwise.nil
  | @next h s past now r ih =>
    have hpast := ih.imp fun {later earlier} hle => And.intro hle.1
      fun (hs : Steady (.ask rules now r s :: h)) => hle.2 hs.past
    by_cases hnew : ∃ p, (Event.ask rules now r s).delayed? = some p ∧ p.before.rank = rank
    · obtain ⟨p, hp, rfl⟩ := hnew
      obtain ⟨hnow, hstored, hbusy, hdue⟩ := retry_of_ask past.tidy hp
      have hx := past.retried made hstored
      rw [retries_cons_of_eq hp rfl]
      refine List.pairwise_cons.2 ⟨fun q hq => ⟨hx.attempts q hq, fun hs hlt => ?_⟩, hpast⟩
      rw [hdue]
      exact Int64.lt_of_le_of_lt (hx.due_le hbusy hs q hq)
        (lt_addClamped (hnow ▸ hlt) (made.backoff_pos _))
    · push Not at hnew
      rw [retries_cons_of_ne hnew]
      exact hpast

theorem Steady.of_suffix {past : List Event} (hs : Steady h) (hp : past <:+ h) : Steady past :=
  hs.sublist (hp.sublist.map _)

/-- A claim hands out a job that is due. -/
theorem Fate.due_of_claimed {x y : Option Ranked} (fate : Fate rules now id r a x y) {job : Job}
    (hc : r.claimed? a = some job) (hi : job.id = id) :
    ∃ w, x = some w ∧ w.job.scheduledAt ≤ now ∧ y = some ⟨w.rank, job⟩ := by
  cases fate with
  | same _ quiet => exact absurd hi (quiet job hc)
  | @claimed _ _ w _ _ due =>
    obtain rfl := Option.some.inj hc
    exact ⟨w, rfl, due, rfl⟩
  | enqueued | completed | retried | failed | deleted | requeued | purged => cases hc

/-- When a job is handed out its last retry is due, and on a clock that goes forward all of them. -/
theorem Trace.due_of_claimed (trace : Trace rules h s) (made : rules.retry.Made) {job : Job}
    (hc : (Event.ask rules now r s).claimed? = some job)
    (hx : (ask rules now r s).2.jobs.get? job.id = some x) :
    (∀ p, (retries x.rank h).head? = some p → p.due ≤ now) ∧
    (Steady h → ∀ p ∈ retries x.rank h, p.due ≤ now) := by
  have hstep : Step rules now s r (ask rules now r s).1 (ask rules now r s).2 := step_ask rfl
  have hnone : ∀ sub, r.accepted? (ask rules now r s).1 ≠ some (job.id, sub) := by
    intro sub hacc
    have hr := Request.eq_enqueue_of_accepted? hacc
    subst hr
    cases hc
  have fate := hstep.fate_of_tidy trace.tidy job.id fun sub hacc => absurd hacc (hnone sub)
  obtain ⟨w, hw, hdue, hafter⟩ := fate.due_of_claimed hc rfl
  obtain rfl := Option.some.inj (hx.symm.trans hafter)
  have hretried := trace.retried made (Keyed.mem_values hw)
  exact ⟨fun p hp => (hretried.last p hp).trans_le hdue,
    fun hs p hp => Int64.le_trans (hretried.later hs p hp) hdue⟩

end

/-- **A failed job waits until its delay is over.**  The delays of a policy are those of the
    integers, none is zero, and they do not shrink as attempts are counted.  Take any run of a
    store with the policy.  Every retry is due when the delay after its failure is over, or at the
    end of the clock.  No claim hands a job out before its last retry is due, nor before any of
    them is if the clock went forward.  The retries of one job do not wait less and less, and each
    is due after those before it if the clock went forward and had not come to its end. -/
theorem retries_wait (base : Millis) (cap : Option Span) :
    (∀ n, ((RetryPolicy.of base cap).backoff n).toInt = RetryPolicy.exactDelay base cap n) ∧
    (∀ n, 1 ≤ ((RetryPolicy.of base cap).backoff n).toInt) ∧
    (∀ m n, m ≤ n → (RetryPolicy.of base cap).backoff m ≤ (RetryPolicy.of base cap).backoff n) ∧
    ∀ {limit h s}, Trace ⟨.of base cap, limit⟩ h s →
      (∀ e ∈ h, ∀ p, e.delayed? = some p →
        p.due.toInt = min Int64.maxValue.toInt
          (e.now.toInt + ((RetryPolicy.of base cap).backoff p.attempts).toInt) ∧
        (e.now < Int64.maxValue → e.now < p.due)) ∧
      (∀ e past, e :: past <:+ h → ∀ job, e.claimed? = some job →
        ∀ x, e.after.jobs.get? job.id = some x →
          (∀ p, (retries x.rank past).head? = some p → p.due ≤ e.now) ∧
          (Steady h → ∀ p ∈ retries x.rank past, p.due ≤ e.now)) ∧
      ∀ rank,
        (retries rank h).Pairwise (fun later earlier =>
          (RetryPolicy.of base cap).backoff earlier.attempts ≤
            (RetryPolicy.of base cap).backoff later.attempts) ∧
        (Steady h → (retries rank h).Pairwise fun later earlier =>
          later.now < Int64.maxValue → earlier.due < later.due) := by
  have made := RetryPolicy.of_made base cap
  refine ⟨RetryPolicy.toInt_backoff base cap, fun n => made.backoff_pos n,
    fun m n h => RetryPolicy.backoff_mono base cap h,
    fun {limit h s} trace => ⟨?_, ?_, fun rank => ?_⟩⟩
  · intro e he p hp
    obtain ⟨later, past, rfl⟩ := List.append_of_mem he
    obtain ⟨before, hpast, hask⟩ := trace.of_suffix (List.suffix_append later (e :: past))
    rw [hask] at hp
    obtain ⟨-, -, -, hdue⟩ := retry_of_ask hpast.tidy hp
    rw [hdue]
    exact ⟨toInt_addClamped_of_nonneg e.now (made.backoff_pos _).le,
      fun hlt => lt_addClamped hlt (made.backoff_pos _)⟩
  · intro e past hs job hc x hx
    obtain ⟨before, hpast, hask⟩ := trace.of_suffix hs
    rw [hask] at hc hx
    obtain ⟨hlast, hall⟩ := hpast.due_of_claimed made hc hx
    exact ⟨hlast, fun hsteady => hall (hsteady.of_suffix hs).past⟩
  · have hpairs := trace.retries_pairwise made rank
    exact ⟨hpairs.imp fun hle => RetryPolicy.backoff_mono base cap hle.1,
      fun hs => hpairs.imp fun hle => hle.2 hs⟩

/-- A job is put back twice after a failure, and once between because its worker was lost. -/
def failsTwice : List Call :=
  [⟨0, .enqueue "a" ⟨"q", "t", "o", .empty, { maxAttempts := 5 }⟩⟩, ⟨1, .dequeue "w" .any⟩,
    ⟨2, .fail "a" "no"⟩, ⟨152, .dequeue "w" .any⟩, ⟨153, .requeueStale 153⟩,
    ⟨160, .dequeue "v" .any⟩, ⟨170, .fail "a" "no"⟩, ⟨319, .dequeue "v" .any⟩,
    ⟨320, .dequeue "v" .any⟩]

/-- A tenth of a second, doubled up to a cap. -/
def cappedRules : Rules := ⟨.of 100 (some (.ofMillis 150)), .default⟩

theorem retries_wait_failsTwice :
    Trace cappedRules (replay cappedRules failsTwice).1 (replay cappedRules failsTwice).2 ∧
    Steady (replay cappedRules failsTwice).1 ∧
    (retries 0 (replay cappedRules failsTwice).1).map (fun p => (p.now, p.due)) =
      [(170, 320), (2, 152)] ∧
    (retries 0 (replay cappedRules failsTwice).1).Pairwise fun later earlier =>
      later.now < Int64.maxValue → earlier.due < later.due := by
  have trace := Trace.replay cappedRules failsTwice
  have steady : Steady (replay cappedRules failsTwice).1 := by unfold Steady; decide
  obtain ⟨-, -, -, hrun⟩ := retries_wait 100 (some (.ofMillis 150))
  obtain ⟨-, -, hrank⟩ := hrun trace
  exact ⟨trace, steady, by decide, (hrank 0).2 steady⟩

end JobQueue.Volatile
