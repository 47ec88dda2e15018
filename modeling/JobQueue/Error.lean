/-
  What a request to the queue can end in.

  An `Error` is a cause, with the data that its message needs; `message` puts
  every cause into words.  A `Failure` is either such an error or an overflow:
  a count or a difference of times that no machine integer can hold, which
  ends the operation with no answer at all.
-/
import JobQueue.Job.Status
import JobQueue.Number.Literal
import JobQueue.Store.Engine
import JobQueue.Text.Quoted
import JobQueue.Time.Span

namespace JobQueue

/-! ## Causes -/

/-- A fault in the life of a job. -/
inductive DomainFault where
  /-- The job is not in the status that the change starts from. -/
  | transition (source target : Status)
  | unknownStatus (text : String)
  deriving DecidableEq, Repr

/-- Why a job was not accepted from its producer. -/
inductive Rejection where
  | queueEmpty
  | queueTooLong (bytes : Nat)
  | queueAlphabet (name : String)
  | typeBlank
  | tooFewAttempts (attempts : Int32)
  | payloadTooLarge (bytes : Nat)
  | other (text : String)
  deriving DecidableEq, Repr

/-- Why a setting was not accepted. -/
inductive SettingFault where
  | number (key raw : String) (why : Literal.Fault)
  | zero (key : String)
  | flag (key raw : String)
  | zeroPollInterval
  | other (text : String)
  deriving DecidableEq, Repr

/-- The two ways to report the end of an attempt. -/
inductive ReportKind where
  | complete
  | fail
  deriving DecidableEq, Repr

def ReportKind.verb : ReportKind → String
  | complete => "complete"
  | fail => "fail"

/-- Why a report does not fit the state of its job. -/
inductive Conflict where
  /-- The change that the report asks for does not start from the job's status. -/
  | refused (report : ReportKind) (id : String) (why : DomainFault)
  /-- The job is not being processed. -/
  | notProcessing (report : ReportKind) (id : String) (status : Status)
  /-- The job changed between the look at it and the report. -/
  | changedMeanwhile (id : String)
  | other (text : String)
  deriving DecidableEq, Repr

/-- Why the storage did not answer. -/
inductive StorageFault where
  | engine (engine : Engine) (why : EngineFault)
  /-- A fault put there on purpose, to see how callers take it. -/
  | injected (operation : String)
  | other (text : String)
  deriving DecidableEq, Repr

/-- What was looked for and is not there. -/
inductive Missing where
  | job (id : String)
  | other (text : String)
  deriving DecidableEq, Repr

/-- Faults that only a mistake in the queue itself explains. -/
inductive InternalFault where
  /-- An earlier operation broke off while it held the volatile store. -/
  | poisoned
  | other (text : String)
  deriving DecidableEq, Repr

/-- Why a request was refused. -/
inductive Error where
  | domain (why : DomainFault)
  | validation (why : Rejection)
  | database (why : StorageFault)
  | config (why : SettingFault)
  | notFound (what : Missing)
  | invalidState (why : Conflict)
  | alreadyRunning
  | notRunning
  | shutdownTimeout (waited : Span)
  | internal (why : InternalFault)
  deriving DecidableEq, Repr

/-- How an operation can end without its answer. -/
inductive Failure where
  | error (why : Error)
  /-- A value left the range of its machine integer. -/
  | overflow
  deriving DecidableEq, Repr

/-! ## Words -/

/-- The longest queue name, in bytes. -/
def maxQueueNameBytes : Nat := 64

/-- The largest payload that a producer may submit, in bytes. -/
def maxPayloadBytes : Nat := 256 * 1024

def DomainFault.message : DomainFault → String
  | transition source target =>
    "Invalid job state transition: " ++ source.name ++ " -> " ++ target.name
  | unknownStatus text => "Unknown job status: " ++ text

def Rejection.message : Rejection → String
  | queueEmpty => "queue name cannot be empty"
  | queueTooLong n =>
    "queue name too long (" ++ toString n ++ " > " ++ toString maxQueueNameBytes ++ " chars)"
  | queueAlphabet name => "queue name '" ++ name ++ "' must be alphanumeric with '_', '-' or '.'"
  | typeBlank => "job type cannot be empty"
  | tooFewAttempts n => "max_attempts must be at least 1, got " ++ toString n.toInt
  | payloadTooLarge n =>
    "payload too large (" ++ toString n ++ " > " ++ toString maxPayloadBytes ++ " bytes)"
  | other text => text

def SettingFault.message : SettingFault → String
  | number key raw why => key ++ "=" ++ Text.quote raw ++ ": " ++ why.message
  | zero key => key ++ " must be greater than zero"
  | flag key raw => key ++ "=" ++ Text.quote raw ++ ": expected true or false"
  | zeroPollInterval => "poll_interval must be greater than zero"
  | other text => text

def Conflict.message : Conflict → String
  | refused report id why => "Cannot " ++ report.verb ++ " job " ++ id ++ ": " ++ why.message
  | notProcessing report id status =>
    "Cannot " ++ report.verb ++ " job " ++ id ++ " in status " ++ status.name
  | changedMeanwhile id => "Job " ++ id ++ " changed concurrently while failing"
  | other text => text

def StorageFault.message : StorageFault → String
  | engine e why => why.text e
  | injected operation => "injected " ++ operation
  | other text => text

def Missing.message : Missing → String
  | job id => "Job " ++ id ++ " not found"
  | other text => text

def InternalFault.message : InternalFault → String
  | poisoned => "in-memory job store mutex poisoned"
  | other text => text

/-- The error in words. -/
def Error.message : Error → String
  | domain why => "Domain error: " ++ why.message
  | validation why => "Validation error: " ++ why.message
  | database why => "Database error: " ++ why.message
  | config why => "Configuration error: " ++ why.message
  | notFound what => "Not found: " ++ what.message
  | invalidState why => "Invalid state: " ++ why.message
  | alreadyRunning => "Worker pool is already running"
  | notRunning => "Worker pool is not running"
  | shutdownTimeout waited =>
    "Shutdown timed out after " ++ waited.text ++ " with workers still running"
  | internal why => "Internal error: " ++ why.message

/-- Was the thing asked for just not there? -/
def Error.isNotFound : Error → Bool
  | notFound _ => true
  | _ => false

/-! ## Kinds -/

/-- The kind of an error, without its data. -/
inductive ErrorKind where
  | domain | validation | database | config | notFound | invalidState
  | alreadyRunning | notRunning | shutdownTimeout | internal
  deriving DecidableEq, Repr

def Error.kind : Error → ErrorKind
  | domain _ => .domain
  | validation _ => .validation
  | database _ => .database
  | config _ => .config
  | notFound _ => .notFound
  | invalidState _ => .invalidState
  | alreadyRunning => .alreadyRunning
  | notRunning => .notRunning
  | shutdownTimeout _ => .shutdownTimeout
  | internal _ => .internal

/-- The word for a kind of error in records and logs. -/
def ErrorKind.name : ErrorKind → String
  | domain => "Domain"
  | validation => "Validation"
  | database => "Database"
  | config => "Config"
  | notFound => "NotFound"
  | invalidState => "InvalidState"
  | alreadyRunning => "AlreadyRunning"
  | notRunning => "NotRunning"
  | shutdownTimeout => "ShutdownTimeout"
  | internal => "Internal"

end JobQueue
