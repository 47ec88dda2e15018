/-
  How the run of a handler ends.

  A handler runs in a task of its own, so that a handler that breaks off does
  not take its worker down: what is left of the task is turned into an outcome,
  and the outcome into a report on the job.
-/
import JobQueue.Job.Basic

namespace JobQueue

/-- What a task leaves behind when it breaks off. -/
inductive PanicPayload where
  | text (s : String)
  /-- Something that is not a text. -/
  | other
  deriving DecidableEq, Repr, Inhabited

/-- The words for why a task broke off. -/
def PanicPayload.message : PanicPayload → String
  | text s => s
  | other => "Unknown panic"

/-- The end of a task. -/
inductive TaskEnd (α : Type) where
  | returned (a : α)
  | brokeOff (why : PanicPayload)
  | aborted
  deriving DecidableEq, Repr

/-- The end of a task as its owner sees it. -/
inductive Outcome (α : Type) where
  | success (a : α)
  | panicked (message : String)
  | cancelled
  deriving DecidableEq, Repr

/-- The outcome of a task. -/
def TaskEnd.outcome {α : Type} : TaskEnd α → Outcome α
  | returned a => .success a
  | brokeOff why => .panicked why.message
  | aborted => .cancelled

/-- What a handler returns: an error in words, or a result, which may be missing. -/
abbrev HandlerResult := Except String (Option Payload)

/-- What is written down about an attempt. -/
inductive Report where
  | complete (result : Option Payload)
  | fail (message : String)
  deriving DecidableEq, Repr

/-- The report on an attempt that ended in an outcome. -/
def Outcome.report : Outcome HandlerResult → Report
  | success (.ok result) => .complete result
  | success (.error message) => .fail message
  | panicked message => .fail ("handler panicked: " ++ message)
  | cancelled => .fail "handler task cancelled"

end JobQueue
