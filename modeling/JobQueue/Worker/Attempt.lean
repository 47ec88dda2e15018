/-
  One run of a handler.

  A handler is told which worker runs it, which attempt at the job this is,
  and until when it may take.  The deadline is advice: a handler can look at it
  or wait for it, and is not stopped by it.
-/
import JobQueue.Time.Instant

namespace JobQueue

/-- What a handler is told about its run. -/
structure Attempt where
  worker : String
  number : Int32
  deadline : Instant
  deriving DecidableEq, Repr, Inhabited

namespace Attempt

/-- The deadline of a run whose time is unbounded: a hundred years. -/
def farDeadline : Span := .ofSecs (100 * Instant.yearSecs)

/-- A run that begins now and may take a while. -/
def start (worker : String) (number : Int32) (timeout : Span) (now : Instant) : Attempt :=
  ⟨worker, number, now.afterOr farDeadline timeout⟩

/-- The time that is left. -/
def remaining (a : Attempt) (now : Instant) : Span := a.deadline.since now

/-- Has the deadline passed? -/
def isExpired (a : Attempt) (now : Instant) : Bool := a.deadline.nanos ≤ now.nanos

/-- The error of a run that notices its deadline. -/
def deadlineText : String := "job deadline exceeded"

/-- The error of the run, if the deadline has passed. -/
def check (a : Attempt) (now : Instant) : Except String Unit :=
  if a.isExpired now then .error deadlineText else .ok ()

end Attempt

end JobQueue
