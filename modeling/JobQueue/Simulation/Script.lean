/-
  Scripts for a queue, its clock and its workers.

  A scenario is a list of steps, made one after the other.  The steps on the
  store and the clock take no time; some of the steps on the workers wait for
  something.  Handlers follow scripts too: a list of actions, which ends when
  one of them returns or breaks off.
-/
import JobQueue.Json.Basic
import JobQueue.Store.Request
import JobQueue.Worker.Outcome

namespace JobQueue.Simulation

/-- A step on the store or the clock. -/
inductive QueueStep where
  | now
  /-- Moves the clock on. -/
  | advance (d : Span)
  | setClock (time : Millis)
  /-- Puts a job into the store directly. -/
  | enqueue (sub : Submission)
  /-- Submits a job as a producer does. -/
  | produce (sub : Submission)
  | ask (r : Request)
  /-- Two reports of a failure under way at the same time. -/
  | failPair (id message₁ message₂ : String)
  /-- The ids of a listing. -/
  | ids (filter : Filter)
  | recover (window : Option Span)
  | cleanUp (retention : Span)
  /-- From now on the store refuses these operations, and no others. -/
  | refuse (operations : List String)
  /-- A step that could not be read. -/
  | reject (why : Failure)
  deriving DecidableEq, Repr

/-- What a handler does next. -/
inductive Action where
  | succeed (result : Option Payload)
  | fail (message : String)
  /-- Fails if this is an earlier attempt than the given one. -/
  | failBefore (attempt : Int32)
  | panic (why : PanicPayload)
  | sleep (d : Span)
  /-- Fails if the deadline has passed. -/
  | check
  | awaitDeadline
  /-- Succeeds with the payload of the job. -/
  | echo
  /-- Reads the payload as JSON and succeeds with what was read. -/
  | decode
  /-- Succeeds with the time that is left. -/
  | remaining
  /-- A step on the store or the clock, for the id of the job that runs; its answer is ignored. -/
  | step (make : (self : String) → QueueStep)

/-- What a handler does. -/
abbrev Script := List Action

/-- A step of a scenario. -/
inductive Step where
  | queue (s : QueueStep)
  /-- Puts a script in charge of a job type. -/
  | register (type : String) (script : Script)
  | handlerCount
  /-- Runs one cycle of a worker. -/
  | process (worker : String) (queues : QueueSet)
  | start (queues : QueueSet)
  | stop
  /-- Waits for a stop only for a while. -/
  | stopOrGiveUp (after : Span)
  | status
  | dropPool
  | startCleanup
  | cleanupRunning
  | sleep (d : Span)
  /-- Sends the signal that the workers and the cleanup listen to besides their own. -/
  | parentShutdown
  /-- Its sender goes away. -/
  | parentDrop
  /-- The runs of handlers since the last look. -/
  | calls

/-- What happened to a run. -/
inductive RunEvent where
  | start
  | ok
  | err
  deriving DecidableEq, Repr, Inhabited

def RunEvent.name : RunEvent → String
  | start => "start"
  | ok => "ok"
  | err => "err"

/-- A line of the record of runs. -/
structure Call where
  event : RunEvent
  at_ : Millis
  id : String
  attempt : Int32
  worker : String
  deriving DecidableEq, Repr, Inhabited

namespace Call

/-- Is the line written before the other, or at the same place?  By time, then by the bytes of
    the id. -/
def isBefore (a b : Call) : Bool :=
  if a.at_ ≠ b.at_ then a.at_ < b.at_
  else if a.id = b.id then true
  else a.id.toUTF8.data.toList < b.id.toUTF8.data.toList

end Call

/-- The answer of a step. -/
inductive Answer where
  | nothing
  | flag (b : Bool)
  | count (n : Nat)
  | time (t : Millis)
  | word (s : String)
  | job (j : Option Job)
  | jobs (l : List Job)
  | ids (l : List String)
  | stats (s : QueueStats)
  | pair (a b : Except Failure Unit)
  | calls (l : List Call)
  /-- There is no pool any more. -/
  | noPool
  /-- The scenario never comes to the end of the step. -/
  | never

/-- An answer of the store as the answer of a step. -/
def Answer.ofReply : (r : Request) → r.Answer → Answer
  | .enqueue .., j => .job (some j)
  | .dequeue .., j => .job j
  | .complete .., _ => .nothing
  | .fail .., _ => .nothing
  | .delete .., _ => .nothing
  | .get .., j => .job (some j)
  | .list .., l => .jobs l
  | .stats .., s => .stats s
  | .canProcess .., b => .flag b
  | .record .., _ => .nothing
  | .setLimit .., _ => .nothing
  | .requeueStale .., n => .count n
  | .purge .., n => .count n
  | .close, _ => .nothing

end JobQueue.Simulation
