/-
  Workers on one volatile store.

  Each worker of a crew goes through its cycles, one request or one run of a
  handler at a time, and other requests come in between: from producers, from
  sweeps, from anyone.  A worker can be lost at any point; its claim stays
  behind.  The moves are interleaved in any order (`Crew.Run`).

  A crew also carries what nobody sees: the history of the store, the job that
  each worker claimed last, and the runs of the handlers.
-/
import JobQueue.Proofs.Store.History
import JobQueue.Proofs.Store.Limits
import JobQueue.Worker.Cycle

namespace JobQueue

/-- Does the worker have a job in this phase? -/
def Phase.isBusy : Phase → Bool
  | .admitting _ | .running _ | .counting .. | .reporting .. => true
  | .claiming | .finished _ | .broken => false

/-- The job that the handler of the worker has, or that is to be counted after its success. -/
def Phase.atWork? : Phase → Option Job
  | .running job | .counting job _ => some job
  | .claiming | .admitting _ | .reporting .. | .finished _ | .broken => none

namespace Cycle

variable {cycle : Cycle} {job job' : Job}

/-- Under a limit nobody goes to work without asking. -/
theorem atWork?_afterClaim (limiting : cycle.rateLimiting = true)
    (a : Except Failure (Option Job)) : (cycle.afterClaim a).atWork? = none := by
  unfold afterClaim
  split
  · rw [if_pos limiting]
    rfl
  · rfl
  · rfl
  · rfl

theorem eq_of_atWork?_admitted (h : (cycle.admitted job).atWork? = some job') : job = job' := by
  unfold admitted at h
  split at h
  · exact Option.some.inj h
  · cases h

theorem eq_of_atWork?_afterRun {outcome : Outcome HandlerResult}
    (h : (cycle.afterRun job outcome).atWork? = some job') : job = job' := by
  unfold afterRun at h
  split at h
  · split at h
    · exact Option.some.inj h
    · cases h
  · cases h

theorem atWork?_afterCount (job : Job) (result : Option Payload) (a : Except Failure Unit) :
    (afterCount job result a).atWork? = none := by
  unfold afterCount
  split <;> rfl

theorem atWork?_afterReport (a : Except Failure Unit) : (afterReport a).atWork? = none := by
  unfold afterReport
  split <;> rfl

end Cycle

/-- A request that leaves a claim alone: it reports on other jobs, deletes others, and puts back
    only claims that are older. -/
def Request.Spares (job : Job) : Request → Prop
  | .complete id _ | .fail id _ | .delete id => id ≠ job.id
  | .requeueStale before => ∀ t, job.startedAt = some t → before ≤ t
  | _ => True

open Volatile

/-- A request that spares a claim leaves the job as it is. -/
theorem Volatile.Fate.spared {rules : Rules} {now t : Millis} {id : String} {r : Request}
    {a : Except Failure r.Answer} {x : Ranked} {y : Option Ranked}
    (h : Fate rules now id r a (some x) y) (named : x.job.id = id) (busy : x.job.status = .processing)
    (started : x.job.startedAt = some t) (spares : r.Spares x.job) : y = some x := by
  cases h with
  | same => rfl
  | claimed pending => rw [busy] at pending; cases pending
  | completed | retried | failed | deleted => exact absurd named.symm spares
  | @requeued before n _ stale =>
    have hlt : t < before := by simpa [Job.isStale, busy, started] using stale
    exact absurd hlt (Int64.not_lt.2 (spares t started))
  | purged old => simp [Job.isFinishedBefore, busy, Status.isTerminal] at old

/-! ## What workers ask -/

section
variable {cycle : Cycle} {p : Phase} {r : Request}

/-- Workers give no names. -/
theorem ne_enqueue_of_due (due : cycle.request? p = some r) (id : String) (sub : Submission) :
    r ≠ .enqueue id sub := by
  rintro rfl
  cases p with
  | reporting id' report => cases report <;> cases due
  | _ => cases due

theorem fresh_of_due (due : cycle.request? p = some r) (h : List Event) : Fresh h r :=
  fun id sub he => absurd he (ne_enqueue_of_due due id sub)

/-- Workers set no limits. -/
theorem ne_setLimit_of_due (due : cycle.request? p = some r) (t : Tenant) (l : RateLimit) :
    r ≠ .setLimit t l := by
  rintro rfl
  cases p with
  | reporting id report => cases report <;> cases due
  | _ => cases due

/-- A request of a worker that overflows poisons the store. -/
theorem overflow_of_due (due : cycle.request? p = some r) {rules : Rules} {now : Millis}
    {s : Volatile} (h : (ask rules now r s).1 = .error .overflow) :
    (ask rules now r s).2.poisoned = true := by
  cases p with
  | claiming => cases due; exact hold_overflow h
  | admitting job => cases due; exact hold_overflow h
  | counting job result => cases due; exact hold_overflow h
  | reporting id report =>
    cases report with
    | complete result => cases due; exact hold_overflow h
    | fail message => cases due; exact hold_overflow h
  | running | finished | broken => cases due

end

/-! ## Crews -/

/-- Workers `ω` on one store. -/
structure Crew (ω : Type) where
  store : Volatile
  /-- What the store was asked so far. -/
  history : List Event
  phase : ω → Phase
  /-- The job that a worker claimed last, as it was handed out. -/
  claim : ω → Option Job
  /-- Was the worker not lost? -/
  alive : ω → Bool
  /-- The runs of handlers, the last one first. -/
  runs : List (Job × Outcome HandlerResult)

/-- What can happen next to a crew. -/
inductive Move (ω : Type) where
  /-- A worker makes the request of its phase. -/
  | ask (w : ω) (now : Millis)
  /-- The handler of a worker ends. -/
  | run (w : ω) (outcome : Outcome HandlerResult)
  /-- A worker begins a new cycle. -/
  | again (w : ω)
  /-- A worker is lost. -/
  | crash (w : ω)
  /-- Someone else makes a request. -/
  | outside (now : Millis) (r : Request)

namespace Crew

variable {ω : Type}

/-- A crew before its first cycle. -/
def start (h : List Event) (s : Volatile) : Crew ω :=
  ⟨s, h, fun _ => .claiming, fun _ => none, fun _ => true, []⟩

/-- The crew after a request to the store. -/
def told (rules : Rules) (now : Millis) (r : Request) (c : Crew ω) : Crew ω :=
  { c with store := (ask rules now r c.store).2, history := .ask rules now r c.store :: c.history }

variable [DecidableEq ω]

/-- The crew after a worker has entered a phase. -/
def enter (w : ω) (p : Phase) (claim : Option Job) (c : Crew ω) : Crew ω :=
  { c with phase := Function.update c.phase w p, claim := Function.update c.claim w claim }

@[simp] theorem phase_enter_self (w : ω) (p : Phase) (claim : Option Job) (c : Crew ω) :
    (c.enter w p claim).phase w = p :=
  Function.update_self ..

theorem phase_enter_of_ne {w w' : ω} (h : w' ≠ w) (p : Phase) (claim : Option Job) (c : Crew ω) :
    (c.enter w p claim).phase w' = c.phase w' :=
  Function.update_of_ne h ..

/-- The crew after the loss of a worker. -/
def lose (w : ω) (c : Crew ω) : Crew ω := { c with alive := Function.update c.alive w false }

/-- The crew after a move.  A move that is not due changes nothing. -/
def move (rules : Rules) (cycles : ω → Cycle) (c : Crew ω) : Move ω → Crew ω
  | .ask w now =>
    if c.alive w then
      match (cycles w).request? (c.phase w) with
      | some r =>
        let p := ((cycles w).step (Volatile.store rules) now (c.phase w) c.store).1
        (c.told rules now r).enter w p ((Event.ask rules now r c.store).claimed?.or (c.claim w))
      | none => c
    else c
  | .run w outcome =>
    match c.alive w, c.phase w with
    | true, .running job =>
      { c.enter w ((cycles w).afterRun job outcome) (c.claim w) with
        runs := (job, outcome) :: c.runs }
    | _, _ => c
  | .again w =>
    match c.phase w with
    | .finished _ => c.enter w .claiming (c.claim w)
    | _ => c
  | .crash w => c.lose w
  | .outside now r => c.told rules now r

/-- What a move can do. -/
inductive Moved (rules : Rules) (cycles : ω → Cycle) (c : Crew ω) : Move ω → Crew ω → Prop where
  | nothing (m : Move ω) : Moved rules cycles c m c
  | asked {w : ω} {now : Millis} {r : Request} (alive : c.alive w = true)
      (due : (cycles w).request? (c.phase w) = some r) :
      Moved rules cycles c (.ask w now) ((c.told rules now r).enter w
        ((cycles w).step (Volatile.store rules) now (c.phase w) c.store).1
        ((Event.ask rules now r c.store).claimed?.or (c.claim w)))
  | ran {w : ω} {outcome : Outcome HandlerResult} {job : Job} (alive : c.alive w = true)
      (running : c.phase w = .running job) :
      Moved rules cycles c (.run w outcome)
        { c.enter w ((cycles w).afterRun job outcome) (c.claim w) with
          runs := (job, outcome) :: c.runs }
  | begun {w : ω} {claimed : Bool} (idle : c.phase w = .finished claimed) :
      Moved rules cycles c (.again w) (c.enter w .claiming (c.claim w))
  | lost (w : ω) : Moved rules cycles c (.crash w) (c.lose w)
  | told (now : Millis) (r : Request) : Moved rules cycles c (.outside now r) (c.told rules now r)

theorem moved (rules : Rules) (cycles : ω → Cycle) (c : Crew ω) (m : Move ω) :
    Moved rules cycles c m (c.move rules cycles m) := by
  cases m with
  | ask w now =>
    cases ha : c.alive w with
    | false => simpa [move, ha] using .nothing _
    | true =>
      cases hr : (cycles w).request? (c.phase w) with
      | none => simpa [move, ha, hr] using .nothing _
      | some r => simpa only [move, ha, hr, if_true] using .asked ha hr
  | run w outcome =>
    cases ha : c.alive w with
    | false => simpa [move, ha] using .nothing _
    | true =>
      cases hp : c.phase w with
      | running job => simpa only [move, ha, hp] using .ran ha hp
      | _ => simpa [move, ha, hp] using .nothing _
  | again w =>
    cases hp : c.phase w with
    | finished claimed => simpa only [move, hp] using .begun hp
    | _ => simpa [move, hp] using .nothing _
  | crash w => exact .lost w
  | outside now r => exact .told now r

/-- A move goes on with the history of the store, if new jobs get fresh names. -/
theorem history_move {rules : Rules} {cycles : ω → Cycle} {c : Crew ω}
    (hist : History rules c.history c.store) {m : Move ω}
    (fresh : ∀ now r, m = .outside now r → Fresh c.history r) :
    History rules (c.move rules cycles m).history (c.move rules cycles m).store := by
  generalize hc : c.move rules cycles m = c'
  cases hc ▸ moved rules cycles c m with
  | asked alive due => exact hist.next _ _ (fresh_of_due due _)
  | told now r => exact hist.next now r (fresh now r rfl)
  | nothing | ran | begun | lost => exact hist

omit [DecidableEq ω] in
/-- A worker that was not lost has claimed the job and not reported on it yet. -/
def Holds (c : Crew ω) (w : ω) (job : Job) : Prop :=
  c.alive w = true ∧ (c.phase w).isBusy = true ∧ c.claim w = some job

/-- The crews that a crew can become by moves that are allowed. -/
inductive Run (rules : Rules) (cycles : ω → Cycle) (allowed : Crew ω → Move ω → Prop)
    (c₀ : Crew ω) : Crew ω → Prop where
  | start : Run rules cycles allowed c₀ c₀
  | next {c : Crew ω} (past : Run rules cycles allowed c₀ c) (m : Move ω) (ok : allowed c m) :
      Run rules cycles allowed c₀ (c.move rules cycles m)

/-- A property that the first crew has and allowed moves keep is one of every crew of the run. -/
theorem Run.invariant {rules : Rules} {cycles : ω → Cycle} {allowed : Crew ω → Move ω → Prop}
    {c₀ c : Crew ω} {P : Crew ω → Prop} (run : Run rules cycles allowed c₀ c) (start : P c₀)
    (keep : ∀ c m, P c → allowed c m → P (c.move rules cycles m)) : P c := by
  induction run with
  | start => exact start
  | next past m ok ih => exact keep _ m ih ok

/-- Moves that are allowed one after the other. -/
def Follows (rules : Rules) (cycles : ω → Cycle) (allowed : Crew ω → Move ω → Prop) :
    Crew ω → List (Move ω) → Prop
  | _, [] => True
  | c, m :: moves => allowed c m ∧ Follows rules cycles allowed (c.move rules cycles m) moves

/-- They make a run. -/
theorem Run.follow {rules : Rules} {cycles : ω → Cycle} {allowed : Crew ω → Move ω → Prop}
    {c₀ c : Crew ω} (run : Run rules cycles allowed c₀ c) {moves : List (Move ω)}
    (h : Follows rules cycles allowed c moves) :
    Run rules cycles allowed c₀ (moves.foldl (move rules cycles) c) := by
  induction moves generalizing c with
  | nil => exact run
  | cons m moves ih => exact ih (run.next m h.1) h.2

omit [DecidableEq ω] in
/-- A worker that has reported has nothing to do with the job any more. -/
theorem step_reporting (cycle : Cycle) (rules : Rules) (now : Millis) (s : Volatile) (id : String)
    (report : Report) :
    ((cycle.step (Volatile.store rules) now (.reporting id report) s).1).isBusy = false := by
  cases report with
  | complete result =>
    show (Cycle.afterReport (ask rules now (.complete id result) s).1).isBusy = false
    unfold Cycle.afterReport; split <;> rfl
  | fail message =>
    show (Cycle.afterReport (ask rules now (.fail id message) s).1).isBusy = false
    unfold Cycle.afterReport; split <;> rfl

end Crew

end JobQueue
