/-
  A cycle on its way.

  A `Trip` is a cycle with what the loop did so far.  A loop that has claimed a
  job has it in hand (`Holds`) until it reports on it; a trip that ends with a
  claim ends with a report, and if that is accepted the job is settled
  (`over_answered`).  Nothing else that a loop asks concerns claims
  (`spares_of_due`).
-/
import JobQueue.Proofs.Worker.Course
import JobQueue.Proofs.Worker.Keeping

namespace JobQueue

/-! ## The end of a cycle -/

def Phase.isOver : Phase → Bool
  | .finished _ => true
  | _ => false

theorem Request.spares_of_reports {r : Request} {id : String} {job : Job}
    (hid : r.reports? = some id) (hne : id ≠ job.id) : r.Spares job := by
  cases r with
  | complete | fail => cases hid; exact hne
  | _ => cases hid

namespace Cycle

variable {c : Cycle} {p : Phase} {r : Request}

theorem not_over_of_due (due : c.request? p = some r) : p.isOver = false := by
  cases p with
  | finished => cases due
  | _ => rfl

/-- Who has a job after a request has claimed it, or had it before and did not report on it. -/
theorem busy_of_answered (due : c.request? p = some r) {a : Except Failure r.Answer}
    (busy : (c.answered p r a).isBusy = true) :
    p = .claiming ∨ p.isBusy = true ∧ ∀ job, r.Spares job := by
  have hreport : ∀ a, (afterReport a).isBusy = false := by
    intro a; unfold afterReport; split <;> rfl
  cases p with
  | claiming => exact .inl rfl
  | admitting job => cases due; exact .inr ⟨rfl, fun _ => trivial⟩
  | counting job result => cases due; exact .inr ⟨rfl, fun _ => trivial⟩
  | reporting id report => cases report <;> cases due <;> exact absurd busy (by simp [answered, hreport])
  | running | finished | broken => cases due

/-- A cycle ends with a claim that came to nothing, or with a report. -/
theorem over_of_answered (due : c.request? p = some r) {a : Except Failure r.Answer}
    (ended : (c.answered p r a).isOver = true) :
    p = .claiming ∧ r.claimed? a = none ∨ ∃ id report, p = .reporting id report := by
  have hadmitted : ∀ job, (c.admitted job).isOver = false := by
    intro job; unfold admitted; split <;> rfl
  cases p with
  | claiming =>
    cases due
    refine .inl ⟨rfl, ?_⟩
    cases a with
    | error f => rfl
    | ok job =>
      cases job with
      | none => rfl
      | some job =>
        exfalso
        have : (c.afterClaim (.ok (some job))).isOver = false := by
          unfold afterClaim
          dsimp only
          split
          · rfl
          · exact hadmitted job
        simp [answered, this] at ended
  | admitting job =>
    cases due
    have : (c.afterAdmission job a).isOver = false := by
      unfold afterAdmission
      split <;> first | rfl | exact hadmitted job
    simp [answered, this] at ended
  | counting job result =>
    cases due
    have : (afterCount job result a).isOver = false := by
      unfold afterCount; split <;> rfl
    simp [answered, this] at ended
  | reporting id report => exact .inr ⟨id, report, rfl⟩
  | running | finished | broken => cases due

theorem busy_afterRun (c : Cycle) (job : Job) (outcome : Outcome HandlerResult) :
    (c.afterRun job outcome).isBusy = true ∧ (c.afterRun job outcome).isOver = false := by
  unfold afterRun
  split
  · split <;> exact ⟨rfl, rfl⟩
  · exact ⟨rfl, rfl⟩

end Cycle

/-! ## Trips -/

/-- A cycle as far as it came. -/
structure Trip where
  cycle : Cycle
  acts : List Act
  phase : Phase
  course : cycle.Course acts phase

namespace Trip

def begin (c : Cycle) : Trip := ⟨c, [], .claiming, .begin⟩

/-- The request of the phase is answered. -/
def answered (t : Trip) {r : Request} (due : t.cycle.request? t.phase = some r)
    (a : Except Failure r.Answer) : Trip :=
  ⟨t.cycle, t.acts ++ [.asked r a], t.cycle.answered t.phase r a, t.course.asked due a⟩

/-- The handler ends. -/
def ran (t : Trip) {job : Job} (running : t.phase = .running job) (outcome : Outcome HandlerResult) :
    Trip :=
  ⟨t.cycle, t.acts ++ [.ran job outcome], t.cycle.afterRun job outcome,
    (running ▸ t.course).ran outcome⟩

/-- The job that was claimed. -/
def claim? (t : Trip) : Option Job := t.acts.head?.bind Act.claimed?

/-- The job was claimed, and is to be reported on. -/
def Holds (t : Trip) (job : Job) : Prop := t.phase.isBusy = true ∧ t.claim? = some job

/-- The job was claimed, and the report on it, which says what came of it, was accepted. -/
def Settles (t : Trip) (job : Job) : Prop :=
  ∃ admission outcome counted, t.acts = t.cycle.errand job admission outcome counted (.ok ())

section
variable {t : Trip} {r : Request} {job : Job}

theorem acts_of_claiming (h : t.phase = .claiming) : t.acts = [] := by
  have := t.course.reached
  rwa [h] at this

theorem acts_ne_nil (h : t.phase ≠ .claiming) : t.acts ≠ [] := by
  obtain ⟨c, acts, p, course⟩ := t
  have hreached := course.reached
  rintro rfl
  cases p with
  | claiming => exact h rfl
  | admitting job => cases hreached.2
  | running job => obtain ⟨_, _, _, he⟩ := hreached; cases he
  | counting job result => obtain ⟨_, _, _, _, he⟩ := hreached; cases he
  | reporting id report => obtain ⟨_, _, _, _, _, _, he⟩ := hreached; cases he
  | finished claimed =>
    cases claimed with
    | true => obtain ⟨_, _, _, _, _, he⟩ := hreached; cases he
    | false => obtain ⟨_, _, he⟩ := hreached; cases he
  | broken => obtain ⟨_, he, _⟩ := hreached; cases he

theorem claim?_of_claiming (h : t.phase = .claiming) : t.claim? = none := by
  rw [claim?, acts_of_claiming h]
  rfl

theorem claim?_answered_of_claiming (due : t.cycle.request? t.phase = some r)
    (a : Except Failure r.Answer) (h : t.phase = .claiming) :
    (t.answered due a).claim? = r.claimed? a := by
  show (t.acts ++ [Act.asked r a]).head?.bind Act.claimed? = _
  rw [acts_of_claiming h]
  rfl

theorem claim?_answered (due : t.cycle.request? t.phase = some r) (a : Except Failure r.Answer)
    (h : t.phase ≠ .claiming) : (t.answered due a).claim? = t.claim? := by
  show (t.acts ++ [Act.asked r a]).head?.bind Act.claimed? = _
  rw [List.head?_append_of_ne_nil _ (acts_ne_nil h)]
  rfl

theorem claim?_ran (running : t.phase = .running job) (outcome : Outcome HandlerResult) :
    (t.ran running outcome).claim? = t.claim? := by
  have h : t.phase ≠ .claiming := by rw [running]; exact Phase.noConfusion
  show (t.acts ++ [Act.ran job outcome]).head?.bind Act.claimed? = _
  rw [List.head?_append_of_ne_nil _ (acts_ne_nil h)]
  rfl

/-- What was claimed stays so. -/
theorem claim?_answered_of_some (due : t.cycle.request? t.phase = some r)
    (a : Except Failure r.Answer) (h : t.claim? = some job) :
    (t.answered due a).claim? = some job := by
  rw [claim?_answered due a, h]
  intro hp
  rw [claim?_of_claiming hp] at h
  cases h

/-- Only the request of a claiming loop claims. -/
theorem claim?_answered_of_claimed (due : t.cycle.request? t.phase = some r)
    (a : Except Failure r.Answer) (h : r.claimed? a = some job) :
    (t.answered due a).claim? = some job := by
  rw [claim?_answered_of_claiming due a, h]
  obtain ⟨c, acts, p, course⟩ := t
  cases p with
  | claiming => rfl
  | admitting | counting => cases due; cases h
  | reporting id report => cases report <;> cases due <;> cases h
  | running | finished | broken => cases due

theorem holds_answered (due : t.cycle.request? t.phase = some r) {a : Except Failure r.Answer}
    (h : (t.answered due a).Holds job) : t.Holds job ∧ r.Spares job ∨ r.claimed? a = some job := by
  by_cases hp : t.phase = .claiming
  · right
    rw [← claim?_answered_of_claiming due a hp]
    exact h.2
  · obtain hp' | ⟨busy, spares⟩ := Cycle.busy_of_answered due h.1
    · exact absurd hp' hp
    · exact .inl ⟨⟨busy, claim?_answered due a hp ▸ h.2⟩, spares job⟩

/-- A trip that ends with a claim has just been reported on. -/
theorem over_answered (due : t.cycle.request? t.phase = some r) {a : Except Failure r.Answer}
    (ended : (t.answered due a).phase.isOver = true) (h : (t.answered due a).claim? = some job) :
    t.Holds job ∧ r.reports? = some job.id ∧ ((∃ v, a = .ok v) → (t.answered due a).Settles job) := by
  obtain ⟨hp, hnone⟩ | ⟨id, report, hp⟩ := Cycle.over_of_answered due ended
  · rw [claim?_answered_of_claiming due a hp, hnone] at h
    cases h
  · have hne : t.phase ≠ .claiming := by rw [hp]; exact Phase.noConfusion
    rw [claim?_answered due a hne] at h
    obtain ⟨c, acts, p, course⟩ := t
    obtain rfl : p = .reporting id report := hp
    obtain ⟨job', admission, outcome, counted, rfl, hreport, rfl⟩ := course.reached
    obtain rfl : job' = job := Option.some.inj h
    refine ⟨⟨rfl, rfl⟩, ?_, fun hok => ⟨admission, outcome, counted, ?_⟩⟩
    · cases report <;> cases due <;> rfl
    · obtain ⟨v, rfl⟩ := hok
      show c.beforeReport job' admission outcome counted ++ [.asked r (.ok v)] =
        c.errand job' admission outcome counted (.ok ())
      rw [Cycle.errand, ← hreport]
      cases report <;> cases due <;> rfl

/-- A loop reports on the job that it has, and asks nothing else that concerns claims. -/
theorem spares_of_due (due : t.cycle.request? t.phase = some r) :
    (r.reports? = none ∧ ∀ job, r.Spares job) ∨ ∃ job, t.Holds job ∧ r.reports? = some job.id := by
  obtain ⟨c, acts, p, course⟩ := t
  cases p with
  | claiming | admitting | counting => cases due; exact .inl ⟨rfl, fun _ => trivial⟩
  | reporting id report =>
    obtain ⟨job, admission, outcome, counted, rfl, -, rfl⟩ := course.reached
    refine .inr ⟨job, ⟨rfl, rfl⟩, ?_⟩
    cases report <;> cases due <;> rfl
  | running | finished | broken => cases due

theorem holds_ran {running : t.phase = .running job} {outcome : Outcome HandlerResult} {job' : Job}
    (h : (t.ran running outcome).Holds job') : t.Holds job' :=
  ⟨by rw [running]; rfl, claim?_ran running outcome ▸ h.2⟩

end

end Trip

end JobQueue
