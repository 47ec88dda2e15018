/-
  Workers do not get in each other's way.

  A claim is exclusive.  As long as a worker has a job, the store keeps the job
  as it was handed out (`Kept`), nobody else has it, and the worker is where
  the runs of handlers say (`Tracks`).  Together this is what every move of an
  orderly crew preserves (`Sound`).  So every report is accepted, and what it
  writes down is what came of the attempt that was claimed
  (`claims_are_exclusive`).

  A move is taken apart into the request, after which everybody is where they
  were, and the new phase of one worker; a worker that reports lets go of its
  job before it makes its request.
-/
import JobQueue.Proofs.Store.Attempts
import JobQueue.Proofs.Worker.Crew

namespace JobQueue

open Volatile

/-! ## A claimed job in the store -/

/-- The store keeps a claimed job as it was handed out. -/
structure Volatile.Kept (s : Volatile) (job : Job) : Prop where
  stored : ∃ k, s.jobs.get? job.id = some ⟨k, job⟩
  busy : job.status = .processing
  started : ∃ t, job.startedAt = some t

section
variable {rules : Rules} {h : List Event} {s : Volatile} {job : Job}

/-- A request that spares the claim leaves the job as it is. -/
theorem Volatile.Kept.ask (hk : s.Kept job) (hist : History rules h s) (now : Millis) {r : Request}
    (fresh : Fresh h r) (hr : r.Spares job) : (Volatile.ask rules now r s).2.Kept job := by
  obtain ⟨⟨k, hx⟩, hb, t, ht⟩ := hk
  refine ⟨⟨k, ?_⟩, hb, t, ht⟩
  have fate := hist.step fresh now job.id
  rw [hx] at fate
  exact fate.spared rfl hb ht hr

/-- A job that is handed out is kept, and was in nobody's hands. -/
theorem Volatile.kept_of_claimed (hist : History rules h s) (now : Millis) {r : Request}
    (fresh : Fresh h r) (hc : (Event.ask rules now r s).claimed? = some job) :
    (Volatile.ask rules now r s).2.Kept job ∧ ∀ job', s.Kept job' → job'.id ≠ job.id := by
  obtain ⟨x, hx, hp, hy, hb, ht⟩ := (hist.step fresh now job.id).claimed_eq hc rfl
  refine ⟨⟨⟨x.rank, hy⟩, hb, now, ht⟩, fun job' hk hi => ?_⟩
  obtain ⟨k, hx'⟩ := hk.stored
  rw [hi, hx] at hx'
  rw [Option.some.inj hx', hk.busy] at hp
  cases hp

end

namespace Crew

variable {ω : Type}

/-! ## The invariant -/

/-- The attempts that handlers have run. -/
def attempted (runs : List (Job × Outcome HandlerResult)) : List (String × Int32) :=
  runs.map fun p => (p.1.id, p.1.attempts)

/-- The report is what came of the run of the attempt, or says that there is none. -/
def Reports (runs : List (Job × Outcome HandlerResult)) (job : Job) (report : Report) : Prop :=
  (∃ outcome, (job, outcome) ∈ runs ∧ outcome.report = report) ∨
  ((job.id, job.attempts) ∉ attempted runs ∧
    (report = .fail (Cycle.deniedText job) ∨ report = .fail (Cycle.noHandlerText job)))

/-- Where a worker with a claimed job is, by the runs of handlers. -/
def Tracks (runs : List (Job × Outcome HandlerResult)) (job : Job) : Phase → Prop
  | .admitting j | .running j => j = job ∧ (job.id, job.attempts) ∉ attempted runs
  | .counting j result =>
    j = job ∧ ∃ outcome, (job, outcome) ∈ runs ∧ outcome.report = .complete result
  | .reporting id report => id = job.id ∧ Reports runs job report
  | .claiming | .finished _ | .broken => True

/-- What the moves of an orderly crew preserve. -/
structure Sound (rules : Rules) (c : Crew ω) : Prop where
  history : History rules c.history c.store
  healthy : c.store.poisoned = false
  claimed : ∀ w, c.alive w = true → (c.phase w).isBusy = true → ∃ job, c.claim w = some job
  kept : ∀ w job, c.Holds w job → c.store.Kept job
  tracks : ∀ w job, c.Holds w job → Tracks c.runs job (c.phase w)
  alone : ∀ w w' job job', c.Holds w job → c.Holds w' job' → job'.id = job.id → w' = w
  counted : ∀ p ∈ c.runs, p.1.attempts.toInt ≤ claims p.1.id c.history
  once : (attempted c.runs).Nodup

/-- A run of another attempt tells a worker nothing. -/
theorem Tracks.cons {runs : List (Job × Outcome HandlerResult)} {job job' : Job} {p : Phase}
    (h : Tracks runs job p) (hne : job'.id ≠ job.id) (outcome : Outcome HandlerResult) :
    Tracks ((job', outcome) :: runs) job p := by
  have hnew : (job.id, job.attempts) ∉ attempted runs →
      (job.id, job.attempts) ∉ attempted ((job', outcome) :: runs) := by
    intro hn hm
    rcases List.mem_cons.1 hm with he | hm
    · exact hne (Prod.mk.inj he).1.symm
    · exact hn hm
  cases p with
  | admitting j => exact ⟨h.1, hnew h.2⟩
  | running j => exact ⟨h.1, hnew h.2⟩
  | counting j result =>
    obtain ⟨hj, o, ho, hr⟩ := h
    exact ⟨hj, o, List.mem_cons_of_mem _ ho, hr⟩
  | reporting id report =>
    obtain ⟨hi, ⟨o, ho, hr⟩ | ⟨hn, ht⟩⟩ := h
    · exact ⟨hi, Or.inl ⟨o, List.mem_cons_of_mem _ ho, hr⟩⟩
    · exact ⟨hi, Or.inr ⟨hnew hn, ht⟩⟩
  | claiming | finished | broken => trivial

section
variable {rules : Rules} {c : Crew ω}

/-- A crew in which fewer workers hold jobs. -/
theorem Sound.fewer {c' : Crew ω} (hs : Sound rules c) (hst : c'.store = c.store)
    (hh : c'.history = c.history) (hr : c'.runs = c.runs)
    (hbusy : ∀ w, c'.alive w = true → (c'.phase w).isBusy = true →
      c.alive w = true ∧ c'.phase w = c.phase w ∧ c'.claim w = c.claim w) : Sound rules c' := by
  have hold : ∀ w job, c'.Holds w job → c.Holds w job ∧ c'.phase w = c.phase w := by
    rintro w job ⟨ha, hb, hc⟩
    obtain ⟨ha', hp, hc'⟩ := hbusy w ha hb
    exact ⟨⟨ha', hp ▸ hb, hc' ▸ hc⟩, hp⟩
  refine ⟨hst ▸ hh ▸ hs.history, hst ▸ hs.healthy, fun w ha hb => ?_, fun w job hw => ?_,
    fun w job hw => ?_, fun w w' job job' hw hw' => ?_, hr ▸ hh ▸ hs.counted, hr ▸ hs.once⟩
  · obtain ⟨ha', hp, hc⟩ := hbusy w ha hb
    rw [hc]; exact hs.claimed w ha' (hp ▸ hb)
  · rw [hst]; exact hs.kept w job (hold w job hw).1
  · obtain ⟨hw, hp⟩ := hold w job hw
    rw [hr, hp]; exact hs.tracks w job hw
  · exact hs.alone w w' job job' (hold w job hw).1 (hold w' job' hw').1

/-- A request that spares all claims. -/
theorem Sound.told_of_healthy (hs : Sound rules c) {now : Millis} {r : Request}
    (fresh : Fresh c.history r) (healthy : (ask rules now r c.store).2.poisoned = false)
    (hr : ∀ w job, c.Holds w job → r.Spares job) : Sound rules (c.told rules now r) where
  history := hs.history.next now r fresh
  healthy := healthy
  claimed := hs.claimed
  kept w job hw := (hs.kept w job hw).ask hs.history now fresh (hr w job hw)
  tracks := hs.tracks
  alone := hs.alone
  counted p hp := (hs.counted p hp).trans (by exact_mod_cast claims_le)
  once := hs.once

/-- The same for a request that does not overflow. -/
theorem Sound.told (hs : Sound rules c) {now : Millis} {r : Request} (fresh : Fresh c.history r)
    (ho : (ask rules now r c.store).1 ≠ .error .overflow)
    (hr : ∀ w job, c.Holds w job → r.Spares job) : Sound rules (c.told rules now r) :=
  hs.told_of_healthy fresh (((step_ask rfl).poisoned ho).trans hs.healthy) hr

/-- The run of a handler on an attempt that was not run yet, and that nobody else has. -/
theorem Sound.ran (hs : Sound rules c) {job : Job} (hn : (job.id, job.attempts) ∉ attempted c.runs)
    (hc : job.attempts.toInt ≤ claims job.id c.history)
    (hw : ∀ w job', c.Holds w job' → job.id ≠ job'.id) (outcome : Outcome HandlerResult) :
    Sound rules { c with runs := (job, outcome) :: c.runs } where
  history := hs.history
  healthy := hs.healthy
  claimed := hs.claimed
  kept := hs.kept
  tracks w job' hj := (hs.tracks w job' hj).cons (hw w job' hj) outcome
  alone := hs.alone
  counted p hp := by
    rcases List.mem_cons.1 hp with rfl | hp
    · exact hc
    · exact hs.counted p hp
  once := List.nodup_cons.2 ⟨hn, hs.once⟩

theorem Sound.not_others (hs : Sound rules c) {w : ω} {job : Job} (hw : c.Holds w job) :
    ∀ w' job', w' ≠ w → c.Holds w' job' → job'.id ≠ job.id :=
  fun w' job' hne hw' hi => hne (hs.alone w w' job job' hw hw' hi)

theorem sound_start {h : List Event} {s : Volatile} (past : History rules h s)
    (healthy : s.poisoned = false) : Sound rules (.start h s : Crew ω) where
  history := past
  healthy := healthy
  claimed w _ hb := by cases hb
  kept w job hw := by cases hw.2.1
  tracks w job hw := by cases hw.2.1
  alone w w' job job' hw := by cases hw.2.1
  counted p hp := by cases hp
  once := List.nodup_nil

variable [DecidableEq ω]

/-- Who holds a job after a worker has let go of its own is another worker, and held it before. -/
theorem Holds.of_letGo {w w' : ω} {p : Phase} (hp : p.isBusy = false)
    {claim : Option Job} {job : Job} (h : (c.enter w p claim).Holds w' job) :
    w' ≠ w ∧ c.Holds w' job := by
  by_cases he : w' = w
  · subst he
    obtain ⟨-, hb, -⟩ := h
    simp [Crew.enter, hp] at hb
  · refine ⟨he, ?_⟩
    simpa [Holds, Crew.enter, he] using h

/-- A worker lets go of its job. -/
theorem Sound.letGo (hs : Sound rules c) (w : ω) {p : Phase} (hp : p.isBusy = false)
    (claim : Option Job) : Sound rules (c.enter w p claim) := by
  refine hs.fewer rfl rfl rfl fun w' ha hb => ?_
  by_cases he : w' = w
  · subst he
    simp [enter, hp] at hb
  · simp only [enter, Function.update_of_ne he, and_true]
    exact ha

/-- A worker enters a phase with a job that nobody else has. -/
theorem Sound.enter (hs : Sound rules c) (w : ω) {p : Phase} {job : Job} (hk : c.store.Kept job)
    (ht : Tracks c.runs job p) (hw : ∀ w' job', w' ≠ w → c.Holds w' job' → job'.id ≠ job.id) :
    Sound rules (c.enter w p (some job)) := by
  have hown : ∀ job', (c.enter w p (some job)).Holds w job' → job' = job := by
    rintro job' ⟨-, -, hj⟩
    simpa [Crew.enter, eq_comm] using hj
  have hothers : ∀ w' job', w' ≠ w → (c.enter w p (some job)).Holds w' job' → c.Holds w' job' := by
    intro w' job' he hj
    simpa [Holds, Crew.enter, he] using hj
  refine ⟨hs.history, hs.healthy, fun w' ha hb => ?_, fun w' job' hj => ?_, fun w' job' hj => ?_,
    fun w₁ w₂ job₁ job₂ h₁ h₂ hi => ?_, hs.counted, hs.once⟩
  · by_cases he : w' = w
    · subst he
      exact ⟨job, by simp [Crew.enter]⟩
    · simp only [Crew.enter, Function.update_of_ne he] at hb ⊢
      exact hs.claimed w' ha hb
  · by_cases he : w' = w
    · subst he
      rw [hown job' hj]; exact hk
    · exact hs.kept w' job' (hothers w' job' he hj)
  · by_cases he : w' = w
    · subst he
      rw [hown job' hj]
      simpa [Crew.enter] using ht
    · have := hs.tracks w' job' (hothers w' job' he hj)
      simpa [Crew.enter, he] using this
  · by_cases he₁ : w₁ = w <;> by_cases he₂ : w₂ = w
    · rw [he₁, he₂]
    · subst he₁
      rw [hown job₁ h₁] at hi
      exact absurd hi (hw w₂ job₂ he₂ (hothers w₂ job₂ he₂ h₂))
    · subst he₂
      rw [hown job₂ h₂] at hi
      exact absurd hi.symm (hw w₁ job₁ he₁ (hothers w₁ job₁ he₁ h₁))
    · exact hs.alone w₁ w₂ job₁ job₂ (hothers w₁ job₁ he₁ h₁) (hothers w₂ job₂ he₂ h₂) hi

end

/-! ## From phase to phase -/

section
variable {runs : List (Job × Outcome HandlerResult)} {job : Job} (cycle : Cycle)

theorem tracks_admitted (hn : (job.id, job.attempts) ∉ attempted runs) :
    Tracks runs job (cycle.admitted job) := by
  unfold Cycle.admitted
  split
  · exact ⟨rfl, hn⟩
  · exact ⟨rfl, Or.inr ⟨hn, Or.inr rfl⟩⟩

theorem tracks_afterClaim (hn : (job.id, job.attempts) ∉ attempted runs) :
    Tracks runs job (cycle.afterClaim (.ok (some job))) := by
  by_cases hl : cycle.rateLimiting = true
  · rw [Cycle.afterClaim, if_pos hl]
    exact ⟨rfl, hn⟩
  · rw [Cycle.afterClaim, if_neg hl]
    exact tracks_admitted cycle hn

theorem tracks_afterAdmission (hn : (job.id, job.attempts) ∉ attempted runs)
    (a : Except Failure Bool) : Tracks runs job (cycle.afterAdmission job a) := by
  unfold Cycle.afterAdmission
  split
  · exact tracks_admitted cycle hn
  · exact ⟨rfl, Or.inr ⟨hn, Or.inl rfl⟩⟩
  · exact tracks_admitted cycle hn
  · trivial

theorem tracks_afterRun {outcome : Outcome HandlerResult} (ho : (job, outcome) ∈ runs) :
    Tracks runs job (cycle.afterRun job outcome) := by
  unfold Cycle.afterRun
  split
  · rename_i result hr
    split
    · exact ⟨rfl, outcome, ho, hr⟩
    · exact ⟨rfl, Or.inl ⟨outcome, ho, hr⟩⟩
  · rename_i message hr
    exact ⟨rfl, Or.inl ⟨outcome, ho, hr⟩⟩

theorem tracks_afterCount {outcome : Outcome HandlerResult} {result : Option Payload}
    (ho : (job, outcome) ∈ runs) (hr : outcome.report = .complete result)
    (a : Except Failure Unit) : Tracks runs job (Cycle.afterCount job result a) := by
  unfold Cycle.afterCount
  split
  · trivial
  · exact ⟨rfl, Or.inl ⟨outcome, ho, hr⟩⟩

theorem afterClaim_idle {a : Except Failure (Option Job)} (ha : ∀ job, a ≠ .ok (some job)) :
    (cycle.afterClaim a).isBusy = false := by
  unfold Cycle.afterClaim
  split
  · exact absurd rfl (ha _)
  · rfl
  · rfl
  · rfl

end

/-! ## Reports -/

section
variable {rules : Rules} {c : Crew ω}

theorem Sound.reports (hs : Sound rules c) {w : ω} {job : Job} (hw : c.Holds w job) {id : String}
    {report : Report} (hp : c.phase w = .reporting id report) :
    id = job.id ∧ Reports c.runs job report := by
  have ht := hs.tracks w job hw
  rwa [hp] at ht

/-- The success of an attempt is accepted, and its result is written down. -/
theorem Sound.complete (hs : Sound rules c) {w : ω} {job : Job} (hw : c.Holds w job) (now : Millis)
    (result : Option Payload) :
    (ask rules now (.complete job.id result) c.store).1 = .ok () ∧
    ∃ k, (ask rules now (.complete job.id result) c.store).2.jobs.get? job.id =
      some ⟨k, job.finished now result⟩ := by
  have hk := hs.kept w job hw
  obtain ⟨k, hx⟩ := hk.stored
  have he : ask rules now (.complete job.id result) c.store = _ :=
    complete_of_busy hs.healthy hx hk.busy now result
  rw [he]
  exact ⟨rfl, k, by simp [Volatile.update, Keyed.get?_put]⟩

/-- The failure of an attempt is accepted, and its error is written down. -/
theorem Sound.fail (hs : Sound rules c) {w : ω} {job : Job} (hw : c.Holds w job) (now : Millis)
    (message : String) :
    (ask rules now (.fail job.id message) c.store).1 = .ok () ∧
    (job.failing rules.retry now message).error = some message ∧
    ∃ k, (ask rules now (.fail job.id message) c.store).2.jobs.get? job.id =
      some ⟨k, job.failing rules.retry now message⟩ := by
  have hk := hs.kept w job hw
  obtain ⟨k, hx⟩ := hk.stored
  have he : ask rules now (.fail job.id message) c.store = _ :=
    fail_of_busy hs.healthy hx hk.busy rules.retry now message
  rw [he]
  exact ⟨rfl, job.failing_error .., k, by simp [Volatile.update, Keyed.get?_put]⟩

end

/-! ## Moves of an orderly crew -/

variable {rules : Rules} {cycles : ω → Cycle} {c : Crew ω}

/-- Nothing overflows, names of new jobs are fresh, and requests from outside spare the claims of
    the workers. -/
def Orderly (rules : Rules) (cycles : ω → Cycle) (c : Crew ω) : Move ω → Prop
  | .ask w now => ∀ r, (cycles w).request? (c.phase w) = some r →
    (ask rules now r c.store).1 ≠ .error .overflow
  | .outside now r => Fresh c.history r ∧ (ask rules now r c.store).1 ≠ .error .overflow ∧
    ∀ w job, c.Holds w job → r.Spares job
  | .run .. | .again _ | .crash _ => True

theorem orderly_ask {w : ω} {now : Millis} {r : Request}
    (hr : (cycles w).request? (c.phase w) = some r)
    (ho : (ask rules now r c.store).1 ≠ .error .overflow) : Orderly rules cycles c (.ask w now) := by
  intro r' hr'
  obtain rfl := Option.some.inj (hr.symm.trans hr')
  exact ho

variable [DecidableEq ω]

/-- A worker asks for a job. -/
theorem Sound.claiming (hs : Sound rules c) (w : ω) (cycle : Cycle) {now : Millis} {worker : String}
    {queues : QueueSet} (ho : (ask rules now (.dequeue worker queues) c.store).1 ≠ .error .overflow) :
    Sound rules ((c.told rules now (.dequeue worker queues)).enter w
      (cycle.afterClaim (ask rules now (.dequeue worker queues) c.store).1)
      ((Event.ask rules now (.dequeue worker queues) c.store).claimed?.or (c.claim w))) := by
  have fresh : Fresh c.history (.dequeue worker queues) := fun id sub h => by cases h
  have htold := hs.told fresh ho fun w job _ => trivial
  cases hc : (Event.ask rules now (.dequeue worker queues) c.store).claimed? with
  | none =>
    refine htold.letGo w (afterClaim_idle cycle fun job ha => ?_) _
    rw [Event.claimed?, Event.ask, ha] at hc
    cases hc
  | some job =>
    obtain ⟨hk, hothers⟩ := kept_of_claimed hs.history now fresh hc
    have ha : (ask rules now (.dequeue worker queues) c.store).1 = .ok (some job) := by
      rw [Event.claimed?, Event.ask] at hc
      generalize (ask rules now (.dequeue worker queues) c.store).1 = a at hc ⊢
      cases a with
      | ok j => exact congrArg _ hc
      | error f => cases hc
    have hn : (job.id, job.attempts) ∉ attempted c.runs := by
      intro hm
      obtain ⟨p, hp, he⟩ := List.mem_map.1 hm
      have h₁ := hs.counted p hp
      have h₂ := hs.history.attempts_of_claimed now fresh hc
      rw [claims_of_claimed hc rfl] at h₂
      rw [(Prod.mk.inj he).1, (Prod.mk.inj he).2] at h₁
      omega
    rw [ha]
    exact htold.enter w hk (tracks_afterClaim cycle hn) fun w' job' _ hw' =>
      hothers job' (hs.kept w' job' hw')

/-- A worker with a job makes a request that is not its report. -/
theorem Sound.onTheWay (hs : Sound rules c) {w : ω} {job : Job} (hw : c.Holds w job) {now : Millis}
    {r : Request} (hc : (Event.ask rules now r c.store).claimed? = none)
    (fresh : Fresh c.history r) (ho : (ask rules now r c.store).1 ≠ .error .overflow)
    (hr : ∀ job, r.Spares job) {p : Phase} (hp : Tracks c.runs job p) :
    Sound rules ((c.told rules now r).enter w p
      ((Event.ask rules now r c.store).claimed?.or (c.claim w))) := by
  have htold := hs.told fresh ho fun w job _ => hr job
  rw [hc, Option.none_or, hw.2.2]
  exact htold.enter w (htold.kept w job hw) hp (htold.not_others hw)

/-- A worker reports. -/
theorem Sound.reporting (hs : Sound rules c) {w : ω} {job : Job} (hw : c.Holds w job) {now : Millis}
    {r : Request} (fresh : Fresh c.history r) (ho : (ask rules now r c.store).1 ≠ .error .overflow)
    (hr : ∀ job', job'.id ≠ job.id → r.Spares job') {p : Phase} (hp : p.isBusy = false)
    (claim : Option Job) : Sound rules ((c.told rules now r).enter w p claim) := by
  -- it lets go of its job first
  refine (hs.letGo w hp claim).told fresh ho fun w' job' hw' => ?_
  obtain ⟨hne, hw'⟩ := hw'.of_letGo hp
  exact hr job' (hs.not_others hw w' job' hne hw')

theorem Sound.asked (hs : Sound rules c) {w : ω} {now : Millis} (ha : c.alive w = true)
    {r : Request} (hr : (cycles w).request? (c.phase w) = some r)
    (ho : (ask rules now r c.store).1 ≠ .error .overflow) :
    Sound rules ((c.told rules now r).enter w
      ((cycles w).step (Volatile.store rules) now (c.phase w) c.store).1
      ((Event.ask rules now r c.store).claimed?.or (c.claim w))) := by
  have hbusy : (c.phase w).isBusy = true → ∃ job, c.Holds w job := fun hb =>
    (hs.claimed w ha hb).imp fun job hj => ⟨ha, hb, hj⟩
  cases hp : c.phase w with
  | claiming =>
    rw [hp] at hr
    obtain rfl := Option.some.inj hr
    exact hs.claiming w (cycles w) ho
  | admitting j =>
    rw [hp] at hr hbusy
    obtain rfl := Option.some.inj hr
    obtain ⟨job, hw⟩ := hbusy rfl
    have ht := hs.tracks w job hw
    rw [hp] at ht
    obtain ⟨rfl, hn⟩ := ht
    exact hs.onTheWay hw rfl (fun _ _ h => by cases h) ho (fun _ => trivial)
      (tracks_afterAdmission _ hn _)
  | counting j result =>
    rw [hp] at hr hbusy
    obtain rfl := Option.some.inj hr
    obtain ⟨job, hw⟩ := hbusy rfl
    have ht := hs.tracks w job hw
    rw [hp] at ht
    obtain ⟨rfl, outcome, hm, hrep⟩ := ht
    exact hs.onTheWay hw rfl (fun _ _ h => by cases h) ho (fun _ => trivial)
      (tracks_afterCount hm hrep _)
  | reporting id report =>
    rw [hp] at hr hbusy
    obtain ⟨job, hw⟩ := hbusy rfl
    have ht := hs.tracks w job hw
    rw [hp] at ht
    obtain ⟨rfl, -⟩ := ht
    cases report with
    | complete result =>
      obtain rfl := Option.some.inj hr
      exact hs.reporting hw (fun _ _ h => by cases h) ho (fun _ h => h.symm) (step_reporting ..) _
    | fail message =>
      obtain rfl := Option.some.inj hr
      exact hs.reporting hw (fun _ _ h => by cases h) ho (fun _ h => h.symm) (step_reporting ..) _
  | running | finished | broken => rw [hp] at hr; cases hr

/-- The handler of a worker ends. -/
theorem Sound.ranHandler (hs : Sound rules c) {w : ω} {job : Job} (ha : c.alive w = true)
    (hp : c.phase w = .running job) (cycle : Cycle) (outcome : Outcome HandlerResult) :
    Sound rules { c.enter w (cycle.afterRun job outcome) (c.claim w) with
      runs := (job, outcome) :: c.runs } := by
  obtain ⟨job', hj⟩ := hs.claimed w ha (by rw [hp]; rfl)
  have hw : c.Holds w job' := ⟨ha, by rw [hp]; rfl, hj⟩
  have ht := hs.tracks w job' hw
  rw [hp] at ht
  obtain ⟨rfl, hn⟩ := ht
  have hk := hs.kept w job hw
  obtain ⟨k, hx⟩ := hk.stored
  -- the run is noted while the worker has nothing, and then it enters its new phase
  have hidle := hs.letGo w (p := .finished true) rfl none
  have hothers : ∀ w' job', (c.enter w (.finished true) none).Holds w' job' → job.id ≠ job'.id := by
    intro w' job' hw'
    obtain ⟨hne, hw'⟩ := hw'.of_letGo rfl
    exact (hs.not_others hw w' job' hne hw').symm
  have hran := hidle.ran hn (hs.history.attempts_eq hx).le hothers outcome
  have := hran.enter w hk (tracks_afterRun cycle List.mem_cons_self) fun w' job' _ hw' =>
    (hothers w' job' hw').symm
  simpa only [Crew.enter, Function.update_idem, hj] using this

/-- **Orderly moves keep the workers apart.** -/
theorem Sound.move (hs : Sound rules c) {m : Move ω} (ok : Orderly rules cycles c m) :
    Sound rules (c.move rules cycles m) := by
  generalize hc : c.move rules cycles m = c'
  cases hc ▸ moved rules cycles c m with
  | nothing => exact hs
  | asked ha hr => exact hs.asked ha hr (ok _ hr)
  | ran ha hp => exact hs.ranHandler ha hp _ _
  | begun => exact hs.letGo _ rfl _
  | lost w =>
    refine hs.fewer rfl rfl rfl fun w' ha hb => ?_
    by_cases he : w' = w
    · subst he
      simp [lose] at ha
    · simpa [lose, he] using ha
  | told now r => exact hs.told ok.1 ok.2.1 ok.2.2

/-- **Claims are exclusive.**  In every state that an orderly crew reaches, a worker that is busy has
    a job it claimed; the job is in processing and stored as it was handed out, at the attempt that
    the claim counted, and nobody else has it.  When the worker reports, the report is accepted, and
    it is what came of the one run of that attempt, or says that there was none.  No attempt is run
    or handed out twice. -/
theorem claims_are_exclusive {h : List Event} {s : Volatile} (past : History rules h s)
    (healthy : s.poisoned = false) (run : Run rules cycles (Orderly rules cycles) (.start h s) c) :
    (∀ w, c.alive w = true → (c.phase w).isBusy = true → ∃ job, c.Holds w job) ∧
    (∀ w job, c.Holds w job →
      (∃ k, c.store.jobs.get? job.id = some ⟨k, job⟩) ∧ job.status = .processing ∧
      job.attempts.toInt = claims job.id c.history ∧
      ∀ w' job', c.Holds w' job' → job'.id = job.id → w' = w) ∧
    (∀ w job id result, c.Holds w job → c.phase w = .reporting id (.complete result) →
      (∃ outcome, (job, outcome) ∈ c.runs ∧ outcome.report = .complete result) ∧
      ∀ now, (ask rules now (.complete id result) c.store).1 = .ok () ∧
        ∃ k, (ask rules now (.complete id result) c.store).2.jobs.get? job.id =
          some ⟨k, job.finished now result⟩) ∧
    (∀ w job id message, c.Holds w job → c.phase w = .reporting id (.fail message) →
      Reports c.runs job (.fail message) ∧
      ∀ now, (ask rules now (.fail id message) c.store).1 = .ok () ∧
        (job.failing rules.retry now message).error = some message ∧
        ∃ k, (ask rules now (.fail id message) c.store).2.jobs.get? job.id =
          some ⟨k, job.failing rules.retry now message⟩) ∧
    (attempted c.runs).Nodup ∧
    ((handedOut c.history).map fun job => (job.id, job.attempts)).Nodup := by
  have hs : Sound rules c :=
    run.invariant (sound_start past healthy) fun c m hs ok => hs.move ok
  refine ⟨fun w ha hb => ?_, fun w job hw => ?_, fun w job id result hw hp => ?_,
    fun w job id message hw hp => ?_, hs.once, hs.history.handedOut_nodup⟩
  · exact (hs.claimed w ha hb).imp fun job hj => ⟨ha, hb, hj⟩
  · have hk := hs.kept w job hw
    obtain ⟨k, hx⟩ := hk.stored
    exact ⟨⟨k, hx⟩, hk.busy, hs.history.attempts_eq hx, fun w' job' => hs.alone w w' job job' hw⟩
  · obtain ⟨rfl, ⟨outcome, ho, hr⟩ | ⟨-, ht⟩⟩ := hs.reports hw hp
    · exact ⟨⟨outcome, ho, hr⟩, fun now => hs.complete hw now result⟩
    · rcases ht with ht | ht <;> cases ht
  · obtain ⟨rfl, hr⟩ := hs.reports hw hp
    exact ⟨hr, fun now => hs.fail hw now message⟩

/-- Two workers that serve all queues and types. -/
def twoWorkers (w : Bool) : Cycle := ⟨if w then "v" else "w", .any, true, fun _ => true⟩

/-- A worker is lost after its claim; the job is put back, and the other worker runs it. -/
def relayMoves : List (Move Bool) :=
  [.outside 0 (.enqueue "a" ⟨"q", "t", "o", .empty, {}⟩), .ask false 1, .crash false,
    .outside 5 (.requeueStale 2), .ask true 6, .ask true 7, .run true (.success (.ok none)),
    .ask true 8]

/-- The two workers after some of these moves. -/
def relay (n : Nat) : Crew Bool :=
  (relayMoves.take n).foldl (move .default twoWorkers) (.start [] .empty)

theorem run_relay :
    Run .default twoWorkers (Orderly .default twoWorkers) (.start [] .empty) (relay 8) := by
  have h₁ : Orderly .default twoWorkers (relay 0)
      (.outside 0 (.enqueue "a" ⟨"q", "t", "o", .empty, {}⟩)) :=
    ⟨fun _ _ _ => List.not_mem_nil, by decide, fun _ _ _ => trivial⟩
  have h₂ : Orderly .default twoWorkers (relay 1) (.ask false 1) :=
    orderly_ask (r := .dequeue "w" .any) rfl (by decide)
  have h₄ : Orderly .default twoWorkers (relay 3) (.outside 5 (.requeueStale 2)) := by
    refine ⟨fun id sub he _ => (by cases he), by decide, fun w job hw => ?_⟩
    cases w with
    | true => exact absurd hw.2.1 (by decide)
    | false => exact absurd hw.1 (by decide)
  have h₅ : Orderly .default twoWorkers (relay 4) (.ask true 6) :=
    orderly_ask (r := .dequeue "v" .any) rfl (by decide)
  have h₆ : Orderly .default twoWorkers (relay 5) (.ask true 7) :=
    orderly_ask (r := .canProcess ⟨"o", "q"⟩) (by decide) (by decide)
  have h₈ : Orderly .default twoWorkers (relay 7) (.ask true 8) :=
    orderly_ask (r := .record ⟨"o", "q"⟩) (by decide) (by decide)
  exact .next (.next (.next (.next (.next (.next (.next (.next .start _ h₁) _ h₂) (.crash false)
    trivial) _ h₄) _ h₅) _ h₆) (.run true (.success (.ok none))) trivial) _ h₈

theorem claims_are_exclusive_relay :
    ∃ job, (relay 8).Holds true job ∧ job.attempts.toInt = 2 ∧
      (ask .default 9 (.complete "a" none) (relay 8).store).1 = .ok () := by
  obtain ⟨hbusy, hheld, hcomplete, -⟩ := claims_are_exclusive .start rfl run_relay
  obtain ⟨job, hw⟩ := hbusy true (by decide) (by decide)
  have hp : (relay 8).phase true = .reporting "a" (.complete none) := by decide
  have hid : job.id = "a" := by
    have hc : ((relay 8).claim true).map (·.id) = some "a" := by decide
    rw [hw.2.2] at hc
    exact Option.some.inj hc
  obtain ⟨-, -, ha, -⟩ := hheld true job hw
  rw [hid] at ha
  have hc : claims "a" (relay 8).history = 2 := by decide
  exact ⟨job, hw, by rw [ha, hc]; rfl, ((hcomplete true job "a" none hw hp).2 9).1⟩

end Crew

end JobQueue
