/-
  The cycle of a worker.

  In one cycle a worker claims a job, asks whether its tenant may run it,
  lets the handler of its type run, counts the job, and reports what came of
  it.  Every phase makes one request to the store; between two phases of a
  worker other workers, producers and sweeps can make theirs.

  `Cycle.step` makes the request of a phase and enters the next one;
  `Cycle.afterRun` enters the phase after the handler.  `Cycle.run` runs a
  whole cycle with a handler that takes no time.
-/
import JobQueue.Store.Request
import JobQueue.Worker.Outcome
import JobQueue.Worker.Registry

namespace JobQueue

/-- Where a worker is in its cycle. -/
inductive Phase where
  | claiming
  /-- The job is claimed, and its tenant may have too many already. -/
  | admitting (job : Job)
  /-- The handler has the job. -/
  | running (job : Job)
  /-- The handler succeeded and the job is to be counted. -/
  | counting (job : Job) (result : Option Payload)
  | reporting (id : String) (report : Report)
  /-- The cycle is over. -/
  | finished (claimed : Bool)
  /-- An overflow in the store ended the worker. -/
  | broken
  deriving DecidableEq, Repr, Inhabited

/-- What the phases of a worker depend on. -/
structure Cycle where
  worker : String
  queues : QueueSet
  rateLimiting : Bool
  /-- Is there a handler for the type? -/
  serves : String → Bool

namespace Cycle

/-- The tenant of a job. -/
def tenant (job : Job) : Tenant := ⟨job.org, job.queue⟩

/-- Why a job of a tenant with too many jobs was put back. -/
def deniedText (job : Job) : String :=
  "rate limit exceeded for organization " ++ job.org ++ " on queue " ++ job.queue

/-- Why a job without a handler failed. -/
def noHandlerText (job : Job) : String := "no handler registered for job type: " ++ job.type

/-- The request of a phase. -/
def request? (c : Cycle) : Phase → Option Request
  | .claiming => some (.dequeue c.worker c.queues)
  | .admitting job => some (.canProcess (tenant job))
  | .counting job _ => some (.record (tenant job))
  | .reporting id (.complete result) => some (.complete id result)
  | .reporting id (.fail message) => some (.fail id message)
  | .running _ | .finished _ | .broken => none

/-! ## From phase to phase -/

/-- The phase of a job that may run. -/
def admitted (c : Cycle) (job : Job) : Phase :=
  if c.serves job.type then .running job else .reporting job.id (.fail (noHandlerText job))

/-- The phase after a claim. -/
def afterClaim (c : Cycle) : Except Failure (Option Job) → Phase
  | .ok (some job) => if c.rateLimiting then .admitting job else c.admitted job
  | .ok none => .finished false
  | .error (.error _) => .finished false
  | .error .overflow => .broken

/-- The phase after the question for admission.  A store that cannot tell admits the job. -/
def afterAdmission (c : Cycle) (job : Job) : Except Failure Bool → Phase
  | .ok true => c.admitted job
  | .ok false => .reporting job.id (.fail (deniedText job))
  | .error (.error _) => c.admitted job
  | .error .overflow => .broken

/-- The phase after the handler: only a success is counted. -/
def afterRun (c : Cycle) (job : Job) (outcome : Outcome HandlerResult) : Phase :=
  match outcome.report with
  | .complete result =>
    if c.rateLimiting then .counting job result else .reporting job.id (.complete result)
  | .fail message => .reporting job.id (.fail message)

/-- The phase after the count, whether or not it succeeded. -/
def afterCount (job : Job) (result : Option Payload) : Except Failure Unit → Phase
  | .error .overflow => .broken
  | _ => .reporting job.id (.complete result)

/-- The phase after the report, whether or not it was accepted. -/
def afterReport : Except Failure Unit → Phase
  | .error .overflow => .broken
  | _ => .finished true

variable {σ : Type}

/-- Makes the request of a phase and enters the next phase.  A worker whose handler runs waits. -/
def step (c : Cycle) (store : Store σ) (now : Millis) (p : Phase) (s : σ) : Phase × σ :=
  match p with
  | .claiming =>
    let (r, s) := store.ask now (.dequeue c.worker c.queues) s
    (c.afterClaim r, s)
  | .admitting job =>
    let (r, s) := store.ask now (.canProcess (tenant job)) s
    (c.afterAdmission job r, s)
  | .counting job result =>
    let (r, s) := store.ask now (.record (tenant job)) s
    (afterCount job result r, s)
  | .reporting id (.complete result) =>
    let (r, s) := store.ask now (.complete id result) s
    (afterReport r, s)
  | .reporting id (.fail message) =>
    let (r, s) := store.ask now (.fail id message) s
    (afterReport r, s)
  | .running job => (.running job, s)
  | .finished claimed => (.finished claimed, s)
  | .broken => (.broken, s)

/-! ## A whole cycle -/

/-- A step, or the run of a handler that takes no time. -/
def move (c : Cycle) (store : Store σ) (handler : Job → Outcome HandlerResult) (now : Millis)
    (p : Phase) (s : σ) : Phase × σ :=
  match p with
  | .running job => (c.afterRun job (handler job), s)
  | p => c.step store now p s

/-- Makes a number of moves. -/
def moves (c : Cycle) (store : Store σ) (handler : Job → Outcome HandlerResult) (now : Millis) :
    Nat → Phase → σ → Phase × σ
  | 0, p, s => (p, s)
  | n + 1, p, s =>
    let (p, s) := c.move store handler now p s
    c.moves store handler now n p s

/-- Runs a cycle.  It has at most five moves: claim, admission, handler, count and report. -/
def run (c : Cycle) (store : Store σ) (handler : Job → Outcome HandlerResult) (now : Millis)
    (s : σ) : Phase × σ :=
  c.moves store handler now 5 .claiming s

end Cycle

/-- Runs a cycle of a worker with handlers that take no time.  Answers whether a job was claimed;
    nothing if the worker broke off. -/
def processNext {σ : Type} (rateLimiting : Bool)
    (handlers : Registry (Job → Outcome HandlerResult)) (store : Store σ) (now : Millis)
    (worker : String) (queues : QueueSet) (s : σ) : Option Bool × σ :=
  let cycle : Cycle :=
    ⟨worker, queues, rateLimiting, fun type => (handlers.find? type).isSome⟩
  let handler (job : Job) : Outcome HandlerResult :=
    ((handlers.find? job.type).map (· job)).getD .cancelled
  match cycle.run store handler now s with
  | (.finished claimed, s) => (some claimed, s)
  | (_, s) => (none, s)

end JobQueue
