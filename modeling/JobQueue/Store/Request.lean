/-
  What a store of jobs can be asked.

  A store is a state and a function that answers requests, one at a time, at a
  reading of the clock.  The three kinds of stores of this library answer the
  same requests; `Store` is what the workers and the sweeps need to know of
  them.
-/
import JobQueue.Job.Filter
import JobQueue.RateLimit
import JobQueue.Retry
import JobQueue.Stats
import JobQueue.Submission

namespace JobQueue

/-- A request to a store. -/
inductive Request where
  /-- Insert a new waiting job under the name `id`. -/
  | enqueue (id : String) (job : Submission)
  /-- Claim the next job that is due, if there is one. -/
  | dequeue (worker : String) (queues : QueueSet)
  /-- The attempt succeeded. -/
  | complete (id : String) (result : Option Payload)
  /-- The attempt failed: try again later, or give up. -/
  | fail (id : String) (message : String)
  /-- Forget a job, if it is there. -/
  | delete (id : String)
  | get (id : String)
  | list (filter : Filter)
  | stats (queue : String)
  /-- May one more job of the tenant run? -/
  | canProcess (tenant : Tenant)
  /-- Count a job of the tenant. -/
  | record (tenant : Tenant)
  | setLimit (tenant : Tenant) (limit : RateLimit)
  /-- Put the jobs back whose claim is older than `before`. -/
  | requeueStale (before : Millis)
  /-- Forget the jobs that were finished before `before`. -/
  | purge (before : Millis)
  | close
  deriving DecidableEq, Repr

namespace Request

/-- The type of the answers to a request. -/
@[reducible] def Answer : Request → Type
  | enqueue .. => Job
  | dequeue .. => Option Job
  | complete .. => Unit
  | fail .. => Unit
  | delete .. => Unit
  | get .. => Job
  | list .. => List Job
  | stats .. => QueueStats
  | canProcess .. => Bool
  | record .. => Unit
  | setLimit .. => Unit
  | requeueStale .. => Nat
  | purge .. => Nat
  | close => Unit

/-- The name of what is asked. -/
def operation : Request → String
  | enqueue .. => "enqueue"
  | dequeue .. => "dequeue"
  | complete .. => "complete"
  | fail .. => "fail"
  | delete .. => "delete"
  | get .. => "get_job"
  | list .. => "list_jobs"
  | stats .. => "queue_stats"
  | canProcess .. => "can_process_job"
  | record .. => "record_job_processed"
  | setLimit .. => "set_rate_limit"
  | requeueStale .. => "requeue_stale"
  | purge .. => "purge_finished"
  | close => "close"

end Request

/-- What a store is set up with. -/
structure Rules where
  retry : RetryPolicy
  /-- The limit of tenants that have none of their own. -/
  limit : RateLimit
  deriving DecidableEq, Repr

def Rules.default : Rules := ⟨.default, .default⟩

/-- The answer to a request, or how it failed, and the state of the store behind it. -/
abbrev Reply (σ : Type) (r : Request) := Except Failure r.Answer × σ

/-- A way to answer requests with states `σ`. -/
structure Store (σ : Type) where
  ask : Millis → (r : Request) → σ → Reply σ r

/-- A store that refuses some operations and leaves its state alone when it does. -/
def Store.refusing {σ : Type} (store : Store σ) (operations : List String) : Store σ where
  ask now r s :=
    if operations.contains r.operation then
      (.error (.error (.database (.injected r.operation))), s)
    else store.ask now r s

end JobQueue
