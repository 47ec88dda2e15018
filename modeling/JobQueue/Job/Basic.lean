/-
  Jobs.

  A job carries what its producer asked for (queue, type, organization,
  payload, priority, earliest time, permitted attempts) and what became of it
  (status, attempts, times, worker, result, error).  The changes of status are
  `start`, `complete`, `reschedule` and `fail`; each of them starts from one
  status and is refused from any other.
-/
import JobQueue.Error

namespace JobQueue

/-- An opaque block of bytes: what a job is given, or what came out of it. -/
structure Payload where
  bytes : List UInt8
  deriving DecidableEq, Repr, Inhabited

namespace Payload

def empty : Payload := ⟨[]⟩

/-- The number of bytes. -/
def size (p : Payload) : Nat := p.bytes.length

def isEmpty (p : Payload) : Bool := p.bytes.isEmpty

/-- The bytes of a text. -/
def ofText (s : String) : Payload := ⟨s.toUTF8.data.toList⟩

end Payload

/-- A job.  Times are milliseconds since the epoch. -/
structure Job where
  id : String
  queue : String
  /-- Selects the handler. -/
  type : String
  /-- The tenant on whose account the job runs. -/
  org : String
  payload : Payload
  /-- Jobs of higher priority are handed out first. -/
  priority : Int32
  /-- The job is not handed out before this time. -/
  scheduledAt : Millis
  createdAt : Millis
  status : Status
  /-- How often the job has been handed out. -/
  attempts : Int32
  maxAttempts : Int32
  startedAt : Option Millis
  completedAt : Option Millis
  worker : Option String
  result : Option Payload
  error : Option String
  deriving DecidableEq, Repr, Inhabited

namespace Job

/-- How many attempts a job has when its producer does not say. -/
def defaultMaxAttempts : Int32 := 3

/-- A new job, waiting and due at once. -/
def new (id : String) (createdAt : Millis) (queue type org : String) (payload : Payload) : Job where
  id := id
  queue := queue
  type := type
  org := org
  payload := payload
  priority := 0
  scheduledAt := createdAt
  createdAt := createdAt
  status := .pending
  attempts := 0
  maxAttempts := defaultMaxAttempts
  startedAt := none
  completedAt := none
  worker := none
  result := none
  error := none

/-- Waiting, and due at `now`. -/
def isEligible (j : Job) (now : Millis) : Bool :=
  j.status == .pending && j.scheduledAt ≤ now

/-! ## Changes of status -/

/-- pending → processing.  Counts one attempt; an attempt that cannot be counted is an
    overflow. -/
def start (j : Job) (now : Millis) (worker : String) : Except Failure Job :=
  if j.status ≠ .pending then
    .error (.error (.domain (.transition j.status .processing)))
  else match succ32? j.attempts with
    | none => .error .overflow
    | some n =>
      .ok { j with
        status := .processing, attempts := n, startedAt := some now, worker := some worker }

/-- The job after `start`, also when that did not succeed: a start that fails to count the
    attempt has marked the job as taken. -/
def afterStart (j : Job) (now : Millis) (worker : String) : Job :=
  match j.start now worker with
  | .ok j' => j'
  | .error .overflow => { j with status := .processing }
  | .error (.error _) => j

/-- processing → completed. -/
def complete (j : Job) (now : Millis) (result : Option Payload) : Except DomainFault Job :=
  if j.status ≠ .processing then .error (.transition j.status .completed)
  else .ok { j with status := .completed, completedAt := some now, result := result }

/-- processing → pending, due again at `retryAt`. -/
def reschedule (j : Job) (retryAt : Millis) (error : String) : Except DomainFault Job :=
  if j.status ≠ .processing then .error (.transition j.status .pending)
  else .ok { j with status := .pending, scheduledAt := retryAt, error := some error }

/-- processing → failed. -/
def fail (j : Job) (now : Millis) (error : String) : Except DomainFault Job :=
  if j.status ≠ .processing then .error (.transition j.status .failed)
  else .ok { j with status := .failed, completedAt := some now, error := some error }

/-- The note on a job whose worker was lost. -/
def requeueNote : String := "requeued after worker loss"

/-- The job as it waits again after its worker was lost: its attempts still count. -/
def requeued (j : Job) : Job :=
  { j with status := .pending, error := some requeueNote }

/-- In processing since before `before`, or since nobody knows when. -/
def isStale (j : Job) (before : Millis) : Bool :=
  j.status == .processing && j.startedAt.all (· < before)

/-- Finished before `before`. -/
def isFinishedBefore (j : Job) (before : Millis) : Bool :=
  j.status.isTerminal && j.completedAt.any (· < before)

end Job

end JobQueue
