/-
  The volatile store: jobs in the memory of the process.

  The jobs are kept in a map under their names, each with the number of its
  insertion; the windows and the limits of the tenants in two further maps.
  One operation at a time holds the store.  An operation that breaks off with
  an overflow while it holds it leaves the store poisoned: from then on every
  operation is refused.
-/
import JobQueue.Store.Keyed
import JobQueue.Store.Ranked
import JobQueue.Store.Request

namespace JobQueue

/-- The state of the volatile store. -/
structure Volatile where
  jobs : Keyed String Ranked := []
  /-- The number of the next insertion. -/
  nextRank : Nat := 0
  windows : Keyed Tenant Window := []
  limits : Keyed Tenant RateLimit := []
  poisoned : Bool := false
  deriving DecidableEq, Repr, Inhabited

namespace Volatile

def empty : Volatile := {}

/-- All jobs, in the order of an enumeration. -/
def stored (s : Volatile) : List Ranked := s.jobs.values

/-- Refuses everything while the store is poisoned, and poisons it when an operation that holds
    it overflows. -/
def hold {α : Type} (s : Volatile) (run : Volatile → Except Failure (α × Volatile)) :
    Except Failure α × Volatile :=
  if s.poisoned then (.error (.error (.internal .poisoned)), s)
  else match run s with
    | .ok (a, s') => (.ok a, s')
    | .error .overflow => (.error .overflow, { s with poisoned := true })
    | .error (.error e) => (.error (.error e), s)

/-- The job under a name, or the error that there is none. -/
def find (s : Volatile) (id : String) : Except Failure Ranked :=
  match s.jobs.get? id with
  | some r => .ok r
  | none => .error (.error (.notFound (.job id)))

/-- Puts a changed job back in its place. -/
def update (s : Volatile) (id : String) (r : Ranked) (job : Job) : Volatile :=
  { s with jobs := s.jobs.put id { r with job := job } }

/-! ## The life of a job -/

def enqueue (now : Millis) (id : String) (sub : Submission) (s : Volatile) :
    Except Failure Job × Volatile :=
  let job := sub.toJob id now
  s.hold fun s =>
    .ok (job, { s with
      jobs := s.jobs.put id ⟨s.nextRank, job⟩
      nextRank := s.nextRank + 1 })

/-- The job that is handed out next, among those that are due and in a served queue. -/
def next? (now : Millis) (queues : QueueSet) (s : Volatile) : Option Ranked :=
  Ranked.first? (s.stored.filter fun r => r.job.isEligible now && queues.accepts r.job.queue)

def dequeue (now : Millis) (worker : String) (queues : QueueSet) (s : Volatile) :
    Except Failure (Option Job) × Volatile :=
  s.hold fun s =>
    match s.next? now queues with
    | none => .ok (none, s)
    | some r =>
      match r.job.start now worker with
      | .error f => .error f
      | .ok job => .ok (some job, s.update r.job.id r job)

def complete (now : Millis) (id : String) (result : Option Payload) (s : Volatile) :
    Except Failure Unit × Volatile :=
  s.hold fun s =>
    match s.find id with
    | .error f => .error f
    | .ok r =>
      match r.job.complete now result with
      | .error e => .error (.error (.invalidState (.refused .complete id e)))
      | .ok job => .ok ((), s.update id r job)

/-- A job whose attempt failed: due again after the delay of the policy, or failed for good. -/
def afterFailure (retry : RetryPolicy) (now : Millis) (message : String) (job : Job) :
    Except DomainFault Job :=
  match retry.decide job.attempts job.maxAttempts with
  | .retry delay => job.reschedule (addClamped now delay) message
  | .failed => job.fail now message

def fail (retry : RetryPolicy) (now : Millis) (id : String) (message : String) (s : Volatile) :
    Except Failure Unit × Volatile :=
  s.hold fun s =>
    match s.find id with
    | .error f => .error f
    | .ok r =>
      if r.job.status ≠ .processing then
        .error (.error (.invalidState (.notProcessing .fail id r.job.status)))
      else
        match afterFailure retry now message r.job with
        | .error e => .error (.error (.domain e))
        | .ok job => .ok ((), s.update id r job)

/-- Two reports of a failed attempt under way at the same time: one of them comes first. -/
def failTwice (retry : RetryPolicy) (now : Millis) (id message₁ message₂ : String)
    (s : Volatile) : Except Failure Unit × Except Failure Unit × Volatile :=
  let (r₁, s) := fail retry now id message₁ s
  let (r₂, s) := fail retry now id message₂ s
  (r₁, r₂, s)

def delete (id : String) (s : Volatile) : Except Failure Unit × Volatile :=
  s.hold fun s => .ok ((), { s with jobs := s.jobs.erase id })

/-! ## Looking at jobs -/

def get (id : String) (s : Volatile) : Except Failure Job × Volatile :=
  s.hold fun s => (s.find id).map fun r => (r.job, s)

def list (filter : Filter) (s : Volatile) : Except Failure (List Job) × Volatile :=
  s.hold fun s =>
    let sorted := Ranked.newestFirst (s.stored.filter fun r => filter.accepts r.job)
    .ok ((filter.page sorted).map (·.job), s)

/-- Counts one job. -/
def countJob (stats : QueueStats) (job : Job) : Except Failure QueueStats :=
  match job.status with
  | .pending => .ok { stats with pending := stats.pending + 1 }
  | .processing => .ok { stats with processing := stats.processing + 1 }
  | .failed => .ok { stats with failed := stats.failed + 1 }
  | .completed =>
    let stats := { stats with completed := stats.completed + 1 }
    match job.startedAt, job.completedAt with
    | some started, some completed =>
      match sub? completed started with
      | none => .error .overflow
      | some _ => .ok { stats with runs := stats.runs ++ [⟨started, completed⟩] }
    | _, _ => .ok stats

def stats (now : Millis) (queue : String) (s : Volatile) :
    Except Failure QueueStats × Volatile :=
  match sub? now statsWindow with
  | none => (.error .overflow, s)
  | some since =>
    s.hold fun s =>
      let recent := (s.stored.map (·.job)).filter fun j => j.queue == queue && since ≤ j.createdAt
      (recent.foldlM countJob (.empty queue)).map fun stats => (stats, s)

/-! ## Limits -/

/-- The jobs of a tenant that are being processed. -/
def processing (s : Volatile) (t : Tenant) : Nat :=
  s.stored.countP fun r =>
    r.job.status == .processing && r.job.org == t.org && r.job.queue == t.queue

def canProcess (default : RateLimit) (now : Millis) (t : Tenant) (s : Volatile) :
    Except Failure Bool × Volatile :=
  s.hold fun s =>
    let limit := (s.limits.get? t).getD default
    let counted := match s.windows.get? t with
      | none => some 0
      | some w => w.counted? now
    match counted with
    | none => .error .overflow
    | some n => .ok (limit.admits n (clamp (s.processing t)), s)

def record (now : Millis) (t : Tenant) (s : Volatile) : Except Failure Unit × Volatile :=
  s.hold fun s =>
    match ((s.windows.get? t).getD (.openAt now)).record? now with
    | none => .error .overflow
    | some w => .ok ((), { s with windows := s.windows.put t w })

def setLimit (t : Tenant) (limit : RateLimit) (s : Volatile) : Except Failure Unit × Volatile :=
  s.hold fun s => .ok ((), { s with limits := s.limits.put t limit })

/-! ## Sweeps -/

def requeueStale (before : Millis) (s : Volatile) : Except Failure Nat × Volatile :=
  s.hold fun s =>
    let stale (r : Ranked) : Bool := r.job.isStale before
    .ok (s.stored.countP stale, { s with
      jobs := s.jobs.mapValues fun r => if stale r then { r with job := r.job.requeued } else r })

def purge (before : Millis) (s : Volatile) : Except Failure Nat × Volatile :=
  s.hold fun s =>
    let old (r : Ranked) : Bool := r.job.isFinishedBefore before
    .ok (s.stored.countP old, { s with jobs := s.jobs.keepIf fun r => !old r })

/-! ## All requests -/

/-- Answers a request. -/
def ask (rules : Rules) (now : Millis) (r : Request) (s : Volatile) : Reply Volatile r :=
  match r with
  | .enqueue id sub => enqueue now id sub s
  | .dequeue worker queues => dequeue now worker queues s
  | .complete id result => complete now id result s
  | .fail id message => fail rules.retry now id message s
  | .delete id => delete id s
  | .get id => get id s
  | .list filter => list filter s
  | .stats queue => stats now queue s
  | .canProcess t => canProcess rules.limit now t s
  | .record t => record now t s
  | .setLimit t limit => setLimit t limit s
  | .requeueStale before => requeueStale before s
  | .purge before => purge before s
  | .close => (.ok (), s)

/-- The volatile store. -/
def store (rules : Rules) : Store Volatile := ⟨ask rules⟩

end Volatile

end JobQueue
