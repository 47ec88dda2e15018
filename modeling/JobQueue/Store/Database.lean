/-
  The tables of a database, and the statements that are made on them.

  A database keeps the jobs in one table, a row for each job, and the tenants
  in another, a row for each organization and queue.  A third table holds the
  versions of the scheme that were set up.  Any of them may be missing.

  The statements on rows are total functions on lists: they insert a row,
  change or delete the rows with a property, or select rows in an order.
-/
import JobQueue.Store.Keyed
import JobQueue.Store.Ranked
import JobQueue.Store.Request

namespace JobQueue

/-! ## Tables -/

/-- The table of the jobs. -/
inductive JobTable where
  /-- A table of an older kind, that has the ids of the jobs and nothing else. -/
  | idsOnly
  /-- The rows, in no particular order, and the identity that the next insertion takes where the
      engine counts insertions. -/
  | current (rows : List Ranked) (identity : Nat)
  deriving DecidableEq, Repr

/-- The row of a tenant: its window, and limits of its own if it has any. -/
structure TenantRow where
  window : Window
  perHour : Option Int64
  concurrent : Option Int64
  deriving DecidableEq, Repr, Inhabited

/-- A database: its tables, as far as they exist, and the names of its indexes. -/
structure Database where
  versions : Option (List Int) := none
  jobs : Option JobTable := none
  tenants : Option (Keyed Tenant TenantRow) := none
  indexes : List String := []
  deriving DecidableEq, Repr, Inhabited

/-- A database, whether it still takes statements, and whether these may only look. -/
structure Connection where
  database : Database
  isOpen : Bool := true
  isReadOnly : Bool := false
  deriving DecidableEq, Repr, Inhabited

def versionsTable : String := "schema_version"
def jobsTable : String := "jobs"
def tenantsTable : String := "rate_limits"

/-- The names of the tables, in alphabetical order. -/
def Database.tableNames (d : Database) : List String :=
  (if d.jobs.isSome then [jobsTable] else []) ++
    (if d.tenants.isSome then [tenantsTable] else []) ++
    (if d.versions.isSome then [versionsTable] else [])

/-! ## Faults of statements -/

/-- The statement names a table that does not exist. -/
def Engine.missingTable : Engine → String → EngineFault
  | .sqlite, table => .reported (some "1") ("no such table: " ++ table)
  | .postgres, table => .reported (some "42P01") ("relation \"" ++ table ++ "\" does not exist")

/-- The statement names a column that does not exist. -/
def Engine.missingColumn : Engine → String → EngineFault
  | .sqlite, column => .reported (some "1") ("no such column: " ++ column)
  | .postgres, column => .reported (some "42703") ("column \"" ++ column ++ "\" does not exist")

/-- The statement inserts a key that is already there. -/
def Engine.keyTwice : Engine → (table column : String) → EngineFault
  | .sqlite, table, column =>
    .reported (some "1555") ("UNIQUE constraint failed: " ++ table ++ "." ++ column)
  | .postgres, table, _ =>
    .reported (some "23505")
      ("duplicate key value violates unique constraint \"" ++ table ++ "_pkey\"")

/-- The statement would change a database that may only be looked at. -/
def EngineFault.readOnly : EngineFault :=
  .reported (some "8") "attempt to write a readonly database"

/-- The rows of the jobs and the next identity. -/
def Database.jobRows (d : Database) (e : Engine) : Except EngineFault (List Ranked × Nat) :=
  match d.jobs with
  | none => .error (e.missingTable jobsTable)
  | some .idsOnly => .error (e.missingColumn "status")
  | some (.current rows identity) => .ok (rows, identity)

/-- The rows of the tenants. -/
def Database.tenantRows (d : Database) (e : Engine) :
    Except EngineFault (Keyed Tenant TenantRow) :=
  match d.tenants with
  | none => .error (e.missingTable tenantsTable)
  | some rows => .ok rows

def Database.setJobs (d : Database) (rows : List Ranked) (identity : Nat) : Database :=
  { d with jobs := some (.current rows identity) }

def Database.setTenants (d : Database) (rows : Keyed Tenant TenantRow) : Database :=
  { d with tenants := some rows }

/-! ## Statements on the rows of the jobs -/

namespace Rows

/-- Inserts a row, unless its id is already there. -/
def insert? (rank : Nat) (job : Job) (rows : List Ranked) : Option (List Ranked) :=
  if rows.any (·.job.id == job.id) then none else some (rows ++ [⟨rank, job⟩])

/-- A rank above the ranks of all rows. -/
def freshRank (rows : List Ranked) : Nat := (rows.map (·.rank)).foldr max 0 + 1

/-- The job with an id. -/
def byId? (id : String) (rows : List Ranked) : Option Job :=
  (rows.find? (·.job.id == id)).map (·.job)

/-- How many rows have a property. -/
def count (having : Job → Bool) (rows : List Ranked) : Nat := rows.countP fun r => having r.job

/-- Changes the rows with a property. -/
def update (having : Job → Bool) (set : Job → Job) (rows : List Ranked) : List Ranked :=
  rows.map fun r => if having r.job then { r with job := set r.job } else r

/-- Deletes the rows with a property. -/
def delete (having : Job → Bool) (rows : List Ranked) : List Ranked :=
  rows.filter fun r => !having r.job

/-- The rows with a property in the order in which they are handed out: by priority, the highest
    first, then by age, then by rank. -/
def inOrder (having : Job → Bool) (rows : List Ranked) : List Ranked :=
  (rows.filter fun r => having r.job).mergeSort fun a b => !b.isBefore a

/-- A page of the jobs that agree with a filter, the newest first. -/
def page (f : Filter) (rows : List Ranked) : List Job :=
  let agrees (r : Ranked) : Bool :=
    f.queue.all (r.job.queue == ·) && f.type.all (r.job.type == ·) &&
      f.org.all (r.job.org == ·) && f.status.all (r.job.status == ·)
  (f.page (Ranked.newestFirst (rows.filter agrees))).map (·.job)

/-- Is a job due at `now` and in a served queue? -/
def isDue (now : Millis) (queues : QueueSet) (j : Job) : Bool :=
  j.status == .pending && j.scheduledAt ≤ now &&
    (queues.names.isEmpty || queues.names.contains j.queue)

/-- The statistics of a queue, from its rows created at `since` or later: a count for each status,
    and the times of the completed jobs, in the order in which jobs are handed out. -/
def stats (queue : String) (since : Millis) (rows : List Ranked) : QueueStats :=
  let recent := (inOrder (fun j => j.queue == queue && since ≤ j.createdAt) rows).map (·.job)
  let ofStatus (s : Status) : List Job := recent.filter (·.status == s)
  { queue := queue
    pending := (ofStatus .pending).length
    processing := (ofStatus .processing).length
    completed := (ofStatus .completed).length
    failed := (ofStatus .failed).length
    runs := (ofStatus .completed).filterMap fun j =>
      j.startedAt.bind fun started => j.completedAt.map fun completed => ⟨started, completed⟩ }

/-- The jobs of a tenant that are being processed. -/
def processing (t : Tenant) (rows : List Ranked) : Nat :=
  count (fun j => j.org == t.org && j.queue == t.queue && j.status == .processing) rows

/-- Has the claim of a job started before `before`, or at an unknown time? -/
def isLost (before : Millis) (j : Job) : Bool :=
  j.status == .processing &&
    match j.startedAt with
    | none => true
    | some t => t < before

/-- Was a job finished before `before`? -/
def isOld (before : Millis) (j : Job) : Bool :=
  (j.status == .completed || j.status == .failed) &&
    match j.completedAt with
    | none => false
    | some t => t < before

end Rows

/-! ## Statements on the rows of the tenants -/

namespace TenantRow

/-- A row for limits alone. -/
def unused : TenantRow := ⟨⟨0, 0⟩, none, none⟩

/-- The row with limits of its own. -/
def withLimit (l : RateLimit) (row : TenantRow) : TenantRow :=
  { row with perHour := some l.perHour, concurrent := some l.concurrent }

/-- The limits of a tenant: its own, or else the common ones. -/
def limit (common : RateLimit) (row : TenantRow) : RateLimit :=
  ⟨row.perHour.getD common.perHour, row.concurrent.getD common.concurrent⟩

/-- Does the row of a tenant, if it has one, let one more job run? -/
def admits (common : RateLimit) (now : Millis) (processing : Nat) (row : Option TenantRow) :
    Except Failure Bool :=
  match row with
  | none => .ok (common.admits 0 (clamp processing))
  | some row =>
    match row.window.counted? now with
    | none => .error .overflow
    | some n => .ok ((row.limit common).admits n (clamp processing))

end TenantRow

end JobQueue
