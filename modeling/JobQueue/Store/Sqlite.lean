/-
  The store in a database file.

  Every operation is one statement, or a look and a statement.  `fail` is the
  one operation whose statement depends on what an earlier look found:
  `planFailure` looks at the job and decides, `PlannedFailure.carryOut` makes
  the change only where the job still is in the claim that was looked at.
  Other operations may come between the two.
-/
import JobQueue.Store.Database

namespace JobQueue.Sqlite

/-- A fault of the engine as the failure of an operation. -/
def failed (f : EngineFault) : Failure := .error (.database (.engine .sqlite f))

/-- Makes a statement; one that fails changes nothing. -/
def perform {α : Type} (statement : Database → Except EngineFault (α × Database))
    (c : Connection) : Except Failure α × Connection :=
  if !c.isOpen then (.error (failed .closed), c)
  else match statement c.database with
    | .error f => (.error (failed f), c)
    | .ok (a, d) => (.ok a, { c with database := d })

/-- Makes a statement that changes rows.  On a database that may only be looked at it is refused,
    unless it fails for another reason before. -/
def change {α : Type} (statement : Database → Except EngineFault (α × Database))
    (c : Connection) : Except Failure α × Connection :=
  perform (fun d =>
    (statement d).bind fun r => if c.isReadOnly then .error .readOnly else .ok r) c

/-- Looks at the rows of the jobs. -/
def look {α : Type} (read : List Ranked → α) (d : Database) : Except EngineFault (α × Database) :=
  (d.jobRows .sqlite).map fun (rows, _) => (read rows, d)

/-- Changes the rows of the jobs that have a property, and counts them. -/
def updateJobs (having : Job → Bool) (set : Job → Job) (d : Database) :
    Except EngineFault (Nat × Database) :=
  (d.jobRows .sqlite).map fun (rows, identity) =>
    (Rows.count having rows, d.setJobs (Rows.update having set rows) identity)

/-- Deletes the rows of the jobs that have a property, and counts them. -/
def deleteJobs (having : Job → Bool) (d : Database) : Except EngineFault (Nat × Database) :=
  (d.jobRows .sqlite).map fun (rows, identity) =>
    (Rows.count having rows, d.setJobs (Rows.delete having rows) identity)

/-- Changes the row of a tenant, or inserts one. -/
def upsertTenant (t : Tenant) (new : TenantRow) (set : TenantRow → TenantRow) (d : Database) :
    Except EngineFault (Unit × Database) :=
  (d.tenantRows .sqlite).map fun rows =>
    ((), d.setTenants (rows.put t (((rows.get? t).map set).getD new)))

/-! ## The life of a job -/

/-- The job with an id, if there is one. -/
def fetch (id : String) (c : Connection) : Except Failure (Option Job) × Connection :=
  perform (look (Rows.byId? id)) c

/-- The job with an id, or the error that there is none. -/
def fetchExisting (id : String) (c : Connection) : Except Failure Job :=
  (fetch id c).1.bind fun
    | none => .error (.error (.notFound (.job id)))
    | some job => .ok job

/-- Why a report on a job changed nothing. -/
def refusal (report : ReportKind) (id : String) (c : Connection) : Failure :=
  match fetchExisting id c with
  | .error f => f
  | .ok job => .error (.invalidState (.notProcessing report id job.status))

def enqueue (now : Millis) (id : String) (sub : Submission) (c : Connection) :
    Except Failure Job × Connection :=
  let job := sub.toJob id now
  change (fun d =>
    (d.jobRows .sqlite).bind fun (rows, identity) =>
      match Rows.insert? (Rows.freshRank rows) job rows with
      | none => .error (Engine.sqlite.keyTwice jobsTable "id")
      | some rows => .ok (job, d.setJobs rows identity)) c

/-- A job as it is claimed.  A file keeps its numbers in 64 bits, but a job has no room for the
    attempt after the last one. -/
def claimed (now : Millis) (worker : String) (j : Job) : Except EngineFault Job :=
  match succ32? j.attempts with
  | none => .error (.reported none "integer out of range")
  | some n =>
    .ok { j with
      status := .processing, attempts := n, startedAt := some now, worker := some worker }

def dequeue (now : Millis) (worker : String) (queues : QueueSet) (c : Connection) :
    Except Failure (Option Job) × Connection :=
  change (fun d =>
    (d.jobRows .sqlite).bind fun (rows, identity) =>
      match (Rows.inOrder (Rows.isDue now queues) rows).head? with
      | none => .ok (none, d)
      | some r => (claimed now worker r.job).map fun job =>
        let isNext (j : Job) : Bool := j.id == r.job.id && j.status == .pending
        (some job, d.setJobs (Rows.update isNext (fun _ => job) rows) identity)) c

def complete (now : Millis) (id : String) (result : Option Payload) (c : Connection) :
    Except Failure Unit × Connection :=
  let having (j : Job) : Bool := j.id == id && j.status == .processing
  let set (j : Job) : Job :=
    { j with status := .completed, completedAt := some now, result := result }
  match change (updateJobs having set) c with
  | (.error f, c) => (.error f, c)
  | (.ok 0, c) => (.error (refusal .complete id c), c)
  | (.ok _, c) => (.ok (), c)

/-- A failed attempt that was looked at and is yet to be written down. -/
structure PlannedFailure where
  id : String
  message : String
  /-- When the attempt was reported. -/
  now : Millis
  /-- The number of the attempt that failed. -/
  attempts : Int32
  decision : RetryDecision
  deriving DecidableEq, Repr

/-- Looks at the job of a failed attempt and decides what becomes of it. -/
def planFailure (retry : RetryPolicy) (now : Millis) (id message : String) (c : Connection) :
    Except Failure PlannedFailure :=
  (fetchExisting id c).bind fun job =>
    if job.status = .processing then
      .ok ⟨id, message, now, job.attempts, retry.decide job.attempts job.maxAttempts⟩
    else .error (.error (.invalidState (.notProcessing .fail id job.status)))

/-- The job after a planned failure. -/
def PlannedFailure.apply (p : PlannedFailure) (j : Job) : Job :=
  match p.decision with
  | .retry delay =>
    { j with
      status := .pending, scheduledAt := addClamped p.now delay, error := some p.message }
  | .failed => { j with status := .failed, completedAt := some p.now, error := some p.message }

/-- Writes a planned failure down, if the job still is in the attempt that failed. -/
def PlannedFailure.carryOut (p : PlannedFailure) (c : Connection) :
    Except Failure Unit × Connection :=
  let having (j : Job) : Bool :=
    j.id == p.id && j.status == .processing && j.attempts == p.attempts
  match change (updateJobs having p.apply) c with
  | (.error f, c) => (.error f, c)
  | (.ok 0, c) => (.error (.error (.invalidState (.changedMeanwhile p.id))), c)
  | (.ok _, c) => (.ok (), c)

def fail (retry : RetryPolicy) (now : Millis) (id message : String) (c : Connection) :
    Except Failure Unit × Connection :=
  match planFailure retry now id message c with
  | .error f => (.error f, c)
  | .ok p => p.carryOut c

/-- Two reports of a failed attempt that are under way at the same time: both look at the job
    before either of them is written down. -/
def failTwice (retry : RetryPolicy) (now : Millis) (id message₁ message₂ : String)
    (c : Connection) : Except Failure Unit × Except Failure Unit × Connection :=
  let carryOut (plan : Except Failure PlannedFailure) (c : Connection) :=
    match plan with
    | .error f => (.error f, c)
    | .ok p => p.carryOut c
  let plan₁ := planFailure retry now id message₁ c
  let plan₂ := planFailure retry now id message₂ c
  let (r₁, c₁) := carryOut plan₁ c
  let (r₂, c₂) := carryOut plan₂ c₁
  (r₁, r₂, c₂)

/-! ## Statistics and limits -/

def stats (now : Millis) (queue : String) (c : Connection) :
    Except Failure QueueStats × Connection :=
  match sub? now statsWindow with
  | none => (.error .overflow, c)
  | some since => perform (look (Rows.stats queue since)) c

def canProcess (common : RateLimit) (now : Millis) (t : Tenant) (c : Connection) :
    Except Failure Bool × Connection :=
  let asked : Except Failure (Nat × Option TenantRow) × Connection :=
    perform (fun d =>
      (d.jobRows .sqlite).bind fun (rows, _) =>
        (d.tenantRows .sqlite).map fun tenants =>
          ((Rows.processing t rows, tenants.get? t), d)) c
  (asked.1.bind fun (processing, row) => TenantRow.admits common now processing row, asked.2)

/-- The window after one more job: a window that is over is replaced by a new one.  Here the
    age of a window is compared exactly, whatever its size. -/
def countedIn (now : Millis) (w : Window) : Window :=
  if rateWindow.toInt < now.toInt - w.start.toInt then ⟨now, 1⟩
  else { w with jobs := addClamped w.jobs 1 }

def record (now : Millis) (t : Tenant) (c : Connection) : Except Failure Unit × Connection :=
  change (upsertTenant t ⟨⟨now, 1⟩, none, none⟩ fun row =>
    { row with window := countedIn now row.window }) c

def setLimit (t : Tenant) (l : RateLimit) (c : Connection) : Except Failure Unit × Connection :=
  change (upsertTenant t (TenantRow.unused.withLimit l) (TenantRow.withLimit l)) c

/-! ## All requests -/

/-- Answers a request. -/
def ask (rules : Rules) (now : Millis) (r : Request) (c : Connection) : Reply Connection r :=
  match r with
  | .enqueue id sub => enqueue now id sub c
  | .dequeue worker queues => dequeue now worker queues c
  | .complete id result => complete now id result c
  | .fail id message => fail rules.retry now id message c
  | .delete id =>
    let (r, c) := change (deleteJobs (·.id == id)) c
    (r.map fun _ => (), c)
  | .get id => (fetchExisting id c, c)
  | .list filter => perform (look (Rows.page filter)) c
  | .stats queue => stats now queue c
  | .canProcess t => canProcess rules.limit now t c
  | .record t => record now t c
  | .setLimit t limit => setLimit t limit c
  | .requeueStale before => change (updateJobs (Rows.isLost before) fun j =>
      { j with status := .pending, error := some Job.requeueNote }) c
  | .purge before => change (deleteJobs (Rows.isOld before)) c
  | .close => (.ok (), { c with isOpen := false })

/-- The store in a database file. -/
def store (rules : Rules) : Store Connection := ⟨ask rules⟩

end JobQueue.Sqlite
