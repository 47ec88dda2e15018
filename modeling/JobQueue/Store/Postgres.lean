/-
  The store in a database server.

  The server refuses a null character in a text, whatever the statement, and
  checks its arithmetic: a difference of times that 64 bits cannot hold is a
  fault of the statement.  It counts insertions, also those it refuses.

  `fail` is a transaction: it looks at the job and changes it while no other
  operation can, and when it fails nothing that it did remains.
-/
import JobQueue.Store.Database

namespace JobQueue.Postgres

/-! ## Statements -/

/-- A fault of the engine as the failure of an operation. -/
def failed (f : EngineFault) : Failure := .error (.database (.engine .postgres f))

/-- A null character in a text. -/
def nullCharacter : EngineFault :=
  .reported (some "22021") "invalid byte sequence for encoding \"UTF8\": 0x00"

/-- A number that 64 bits cannot hold. -/
def outOfRange : EngineFault := .reported (some "22003") "bigint out of range"

/-- A number that 32 bits cannot hold. -/
def integerOutOfRange : EngineFault := .reported (some "22003") "integer out of range"

/-- Refuses texts with a null character. -/
def checkTexts (texts : List String) : Except EngineFault Unit :=
  if texts.any fun t => t.toList.contains '\x00' then .error nullCharacter else .ok ()

/-- The rows of the jobs, for a statement with the given texts. -/
def jobRows (texts : List String) (d : Database) : Except EngineFault (List Ranked × Nat) :=
  (d.jobRows .postgres).bind fun rows => (checkTexts texts).map fun _ => rows

/-- The rows of the tenants, for a statement with the given texts. -/
def tenantRows (texts : List String) (d : Database) :
    Except EngineFault (Keyed Tenant TenantRow) :=
  (d.tenantRows .postgres).bind fun rows => (checkTexts texts).map fun _ => rows

/-- Makes a statement.  One that fails changes no row. -/
def perform {α : Type} (statement : Database → Except EngineFault α × Database)
    (c : Connection) : Except Failure α × Connection :=
  if !c.isOpen then (.error (failed .closed), c)
  else match statement c.database with
    | (.error f, d) => (.error (failed f), { c with database := d })
    | (.ok a, d) => (.ok a, { c with database := d })

/-- A statement that fails without any trace. -/
def clean {α : Type} (statement : Database → Except EngineFault (α × Database)) (d : Database) :
    Except EngineFault α × Database :=
  match statement d with
  | .error f => (.error f, d)
  | .ok (a, d') => (.ok a, d')

/-- Looks at the rows of the jobs. -/
def look {α : Type} (texts : List String) (read : List Ranked → Except EngineFault α)
    (d : Database) : Except EngineFault (α × Database) :=
  (jobRows texts d).bind fun (rows, _) => (read rows).map fun a => (a, d)

/-- Changes the rows of the jobs that have a property, and counts them. -/
def updateJobs (texts : List String) (having : Job → Bool) (set : Job → Job) (d : Database) :
    Except EngineFault (Nat × Database) :=
  (jobRows texts d).map fun (rows, identity) =>
    (Rows.count having rows, d.setJobs (Rows.update having set rows) identity)

/-- Deletes the rows of the jobs that have a property, and counts them. -/
def deleteJobs (texts : List String) (having : Job → Bool) (d : Database) :
    Except EngineFault (Nat × Database) :=
  (jobRows texts d).map fun (rows, identity) =>
    (Rows.count having rows, d.setJobs (Rows.delete having rows) identity)

/-- Changes the row of a tenant, or inserts one. -/
def upsertTenant (t : Tenant) (new : TenantRow)
    (set : TenantRow → Except EngineFault TenantRow) (d : Database) :
    Except EngineFault (Unit × Database) :=
  (tenantRows [t.org, t.queue] d).bind fun rows =>
    (((rows.get? t).map set).getD (.ok new)).map fun row => ((), d.setTenants (rows.put t row))

/-! ## The life of a job -/

/-- The job with an id, if there is one. -/
def fetch (id : String) (c : Connection) : Except Failure (Option Job) :=
  (perform (clean (look [id] fun rows => .ok (Rows.byId? id rows))) c).1

/-- The job with an id, or the error that there is none. -/
def fetchExisting (id : String) (c : Connection) : Except Failure Job :=
  (fetch id c).bind fun
    | none => .error (.error (.notFound (.job id)))
    | some job => .ok job

/-- Inserts a job under the next identity, which is used up even if the id is already there. -/
def insertJob (job : Job) (d : Database) : Except EngineFault Job × Database :=
  match jobRows [job.id, job.queue, job.type, job.org] d with
  | .error f => (.error f, d)
  | .ok (rows, identity) =>
    match Rows.insert? identity job rows with
    | none => (.error (Engine.postgres.keyTwice jobsTable "id"), d.setJobs rows (identity + 1))
    | some rows => (.ok job, d.setJobs rows (identity + 1))

def enqueue (now : Millis) (id : String) (sub : Submission) (c : Connection) :
    Except Failure Job × Connection :=
  perform (insertJob (sub.toJob id now)) c

/-- A job as it is claimed. -/
def claimed (now : Millis) (worker : String) (j : Job) : Except EngineFault Job :=
  match succ32? j.attempts with
  | none => .error integerOutOfRange
  | some n =>
    .ok { j with
      status := .processing, attempts := n, startedAt := some now, worker := some worker }

def dequeue (now : Millis) (worker : String) (queues : QueueSet) (c : Connection) :
    Except Failure (Option Job) × Connection :=
  perform (clean fun d =>
    (jobRows (worker :: queues.names) d).bind fun (rows, identity) =>
      match (Rows.inOrder (Rows.isDue now queues) rows).head? with
      | none => .ok (none, d)
      | some r => (claimed now worker r.job).map fun job =>
        (some job, d.setJobs (Rows.update (·.id == r.job.id) (fun _ => job) rows) identity)) c

def complete (now : Millis) (id : String) (result : Option Payload) (c : Connection) :
    Except Failure Unit × Connection :=
  let having (j : Job) : Bool := j.id == id && j.status == .processing
  let set (j : Job) : Job :=
    { j with status := .completed, completedAt := some now, result := result }
  match perform (clean (updateJobs [id] having set)) c with
  | (.error f, c) => (.error f, c)
  | (.ok 0, c) =>
    ((fetchExisting id c).bind fun job =>
      .error (.error (.invalidState (.notProcessing .complete id job.status))), c)
  | (.ok _, c) => (.ok (), c)

/-- Runs a sequence of statements; if it fails, nothing of it remains. -/
def transaction {α : Type} (body : Connection → Except Failure α × Connection)
    (c : Connection) : Except Failure α × Connection :=
  match body c with
  | (.error f, _) => (.error f, c)
  | (.ok a, c') => (.ok a, c')

/-- A job whose attempt failed: due again after the delay of the policy, or failed for good. -/
def afterFailure (decision : RetryDecision) (now : Millis) (message : String) (j : Job) : Job :=
  match decision with
  | .retry delay =>
    { j with status := .pending, scheduledAt := addClamped now delay, error := some message }
  | .failed => { j with status := .failed, completedAt := some now, error := some message }

def fail (retry : RetryPolicy) (now : Millis) (id message : String) (c : Connection) :
    Except Failure Unit × Connection :=
  transaction (fun c =>
    match fetchExisting id c with
    | .error f => (.error f, c)
    | .ok job =>
      if job.status ≠ .processing then
        (.error (.error (.invalidState (.notProcessing .fail id job.status))), c)
      else
        let set := afterFailure (retry.decide job.attempts job.maxAttempts) now message
        let (r, c) := perform (clean (updateJobs [message, id] (·.id == id) set)) c
        (r.map fun _ => (), c)) c

/-- Two reports of a failed attempt under way at the same time: the second transaction waits for
    the first. -/
def failTwice (retry : RetryPolicy) (now : Millis) (id message₁ message₂ : String)
    (c : Connection) : Except Failure Unit × Except Failure Unit × Connection :=
  let (r₁, c) := fail retry now id message₁ c
  let (r₂, c) := fail retry now id message₂ c
  (r₁, r₂, c)

/-! ## Statistics and limits -/

/-- The statistics of a queue; every duration has to fit into 64 bits. -/
def checkedStats (queue : String) (since : Millis) (rows : List Ranked) :
    Except EngineFault QueueStats :=
  let stats := Rows.stats queue since rows
  if stats.durations.all fun d => (fit? d).isSome then .ok stats else .error outOfRange

def stats (now : Millis) (queue : String) (c : Connection) :
    Except Failure QueueStats × Connection :=
  match sub? now statsWindow with
  | none => (.error .overflow, c)
  | some since => perform (clean (look [queue] (checkedStats queue since))) c

def canProcess (common : RateLimit) (now : Millis) (t : Tenant) (c : Connection) :
    Except Failure Bool × Connection :=
  let texts := [t.org, t.queue]
  let asked : Except Failure (Nat × Option TenantRow) × Connection :=
    perform (clean fun d =>
      (jobRows texts d).bind fun (rows, _) =>
        (tenantRows texts d).map fun tenants =>
          ((Rows.processing t rows, tenants.get? t), d)) c
  (asked.1.bind fun (processing, row) => TenantRow.admits common now processing row, asked.2)

/-- The window after one more job: a window that is over is replaced by a new one. -/
def countedIn (now : Millis) (w : Window) : Except EngineFault Window :=
  match fit? (now.toInt - w.start.toInt) with
  | none => .error outOfRange
  | some age =>
    if rateWindow < age then .ok ⟨now, 1⟩
    else match fit? (w.jobs.toInt + 1) with
      | none => .error outOfRange
      | some jobs => .ok ⟨w.start, jobs⟩

def record (now : Millis) (t : Tenant) (c : Connection) : Except Failure Unit × Connection :=
  perform (clean (upsertTenant t ⟨⟨now, 1⟩, none, none⟩ fun row =>
    (countedIn now row.window).map fun w => { row with window := w })) c

def setLimit (t : Tenant) (l : RateLimit) (c : Connection) : Except Failure Unit × Connection :=
  perform (clean (upsertTenant t (TenantRow.unused.withLimit l) fun row =>
    .ok (row.withLimit l))) c

/-! ## All requests -/

/-- The texts of a filter. -/
def filterTexts (f : Filter) : List String := f.queue.toList ++ f.type.toList ++ f.org.toList

/-- Answers a request. -/
def ask (rules : Rules) (now : Millis) (r : Request) (c : Connection) : Reply Connection r :=
  match r with
  | .enqueue id sub => enqueue now id sub c
  | .dequeue worker queues => dequeue now worker queues c
  | .complete id result => complete now id result c
  | .fail id message => fail rules.retry now id message c
  | .delete id =>
    let (r, c) := perform (clean (deleteJobs [id] (·.id == id))) c
    (r.map fun _ => (), c)
  | .get id => (fetchExisting id c, c)
  | .list filter => perform (clean (look (filterTexts filter) fun rows =>
      .ok (Rows.page filter rows))) c
  | .stats queue => stats now queue c
  | .canProcess t => canProcess rules.limit now t c
  | .record t => record now t c
  | .setLimit t limit => setLimit t limit c
  | .requeueStale before => perform (clean (updateJobs [] (Rows.isLost before) fun j =>
      { j with status := .pending, error := some Job.requeueNote })) c
  | .purge before => perform (clean (deleteJobs [] (Rows.isOld before))) c
  | .close => (.ok (), { c with isOpen := false })

/-- The store in a database server. -/
def store (rules : Rules) : Store Connection := ⟨ask rules⟩

end JobQueue.Postgres
