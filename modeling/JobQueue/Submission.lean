/-
  Submitting a job.

  A submission says what the job is and, with its options, how urgent it is,
  how often it may be tried and when it is due.  `check` is what a producer's
  submission has to pass before it reaches the store; the rules are tried in a
  fixed order and the first one violated is reported.
-/
import JobQueue.Job.Basic
import JobQueue.Text.Blank

namespace JobQueue

/-- When a new job is due. -/
inductive Schedule where
  | now
  /-- At a point of the clock. -/
  | at (time : Millis)
  /-- After a span of time. -/
  | after (delay : Span)
  deriving DecidableEq, Repr, Inhabited

/-- The point of the clock at which a job submitted at `now` is due. -/
def Schedule.resolve (s : Schedule) (now : Millis) : Millis :=
  match s with
  | .now => now
  | .at time => time
  | .after delay => addClamped now delay.toMillis

/-- How a job is to be run. -/
structure Options where
  priority : Int32 := 0
  maxAttempts : Int32 := Job.defaultMaxAttempts
  schedule : Schedule := .now
  deriving DecidableEq, Repr, Inhabited

/-- A job as its producer describes it. -/
structure Submission where
  queue : String
  type : String
  org : String
  payload : Payload
  options : Options
  deriving DecidableEq, Repr, Inhabited

namespace Submission

/-- The waiting job that a submission becomes under the name `id` at `now`. -/
def toJob (s : Submission) (id : String) (now : Millis) : Job :=
  { Job.new id now s.queue s.type s.org s.payload with
    priority := s.options.priority
    maxAttempts := s.options.maxAttempts
    scheduledAt := s.options.schedule.resolve now }

/-! ## What a producer may submit -/

/-- The characters of queue names: ASCII letters, digits, `_`, `-` and `.`. -/
def isQueueChar (c : Char) : Bool := c.isAlphanum || c == '_' || c == '-' || c == '.'

/-- A queue name has 1 to 64 bytes, all of them queue characters. -/
def checkQueue (name : String) : Except Rejection Unit :=
  if name.isEmpty then .error .queueEmpty
  else if name.utf8ByteSize > maxQueueNameBytes then .error (.queueTooLong name.utf8ByteSize)
  else if name.toList.all isQueueChar then .ok ()
  else .error (.queueAlphabet name)

/-- A job type has a character that is not blank. -/
def checkType (type : String) : Except Rejection Unit :=
  if Text.allBlank type then .error .typeBlank else .ok ()

/-- A job may be tried at least once. -/
def checkOptions (o : Options) : Except Rejection Unit :=
  if o.maxAttempts < 1 then .error (.tooFewAttempts o.maxAttempts) else .ok ()

def checkPayload (p : Payload) : Except Rejection Unit :=
  if p.size > maxPayloadBytes then .error (.payloadTooLarge p.size) else .ok ()

/-- The first rule that the submission violates, if any. -/
def check (s : Submission) : Except Rejection Unit := do
  checkQueue s.queue
  checkType s.type
  checkOptions s.options
  checkPayload s.payload

end Submission

end JobQueue
