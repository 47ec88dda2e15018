/-
  Setting up the tables of a database.

  The scheme grows in versions.  Each version has a script of statements that
  ends with the note that the version is set up.  `migrate` runs the scripts of
  the versions above the highest one noted, in their order, each of them in
  whole or not at all, and stops at the first that fails.
-/
import JobQueue.Store.Database

namespace JobQueue

/-- A statement that changes the scheme. -/
inductive SchemeStatement where
  /-- Create the table of the versions, unless it exists. -/
  | createVersions
  /-- Create the table of the jobs, unless it exists. -/
  | createJobs
  /-- Create the table of the tenants, unless it exists. -/
  | createTenants
  /-- Create an index on the status of the jobs, unless one with its name exists. -/
  | createIndex (name : String)
  /-- Note that a version is set up. -/
  | noteVersion (version : Int)
  deriving DecidableEq, Repr

/-- A version of the scheme and the script that sets it up. -/
structure Migration where
  version : Int
  script : List SchemeStatement
  deriving DecidableEq, Repr

namespace Migration

/-- The jobs and their indexes. -/
def first : Migration where
  version := 1
  script := [.createVersions, .createJobs, .createIndex "idx_jobs_dequeue",
    .createIndex "idx_jobs_org_queue_status", .createIndex "idx_jobs_status_completed",
    .noteVersion 1]

/-- The limits of the tenants. -/
def second : Migration where
  version := 2
  script := [.createTenants, .noteVersion 2]

/-- All versions, in their order. -/
def all : List Migration := [first, second]

end Migration

namespace Database

/-- Creates an index over the status of the jobs and other columns. -/
def createIndex (e : Engine) (name : String) (d : Database) : Except EngineFault Database :=
  if d.indexes.contains name then .ok d
  else (d.jobRows e).map fun _ => { d with indexes := d.indexes ++ [name] }

/-- Inserts a version. -/
def noteVersion (e : Engine) (version : Int) (d : Database) : Except EngineFault Database :=
  match d.versions with
  | none => .error (e.missingTable versionsTable)
  | some vs =>
    if vs.contains version then .error (e.keyTwice versionsTable "version")
    else .ok { d with versions := some (vs ++ [version]) }

/-- Makes a statement on the scheme. -/
def change (e : Engine) (d : Database) : SchemeStatement → Except EngineFault Database
  | .createVersions => .ok { d with versions := some (d.versions.getD []) }
  | .createJobs => .ok { d with jobs := some (d.jobs.getD (.current [] 1)) }
  | .createTenants => .ok { d with tenants := some (d.tenants.getD []) }
  | .createIndex name => d.createIndex e name
  | .noteVersion version => d.noteVersion e version

/-- Runs a script; nothing changes unless every statement succeeds. -/
def runScript (e : Engine) (script : List SchemeStatement) (d : Database) :
    Except EngineFault Database :=
  script.foldlM (change e) d

/-- The highest version noted, or zero. -/
def version (d : Database) : Int := ((d.versions.getD []).max?).getD 0

/-- Runs the scripts above `version`, and stops at the first that fails. -/
def runMigrations (e : Engine) (version : Int) (d : Database) :
    List Migration → Except EngineFault Unit × Database
  | [] => (.ok (), d)
  | m :: ms =>
    if version < m.version then
      match d.runScript e m.script with
      | .error f => (.error f, d)
      | .ok d => runMigrations e version d ms
    else runMigrations e version d ms

/-- Brings the scheme up to date. -/
def migrate (e : Engine) (d : Database) : Except EngineFault Unit × Database :=
  d.runMigrations e d.version Migration.all

/-- Is there a version that is not set up? -/
def isBehind (d : Database) : Bool := Migration.all.any fun m => d.version < m.version

end Database

/-- Runs the scripts of all versions, each of them on an empty database of its own. -/
def Migration.runApart (e : Engine) : Except EngineFault Unit :=
  Migration.all.forM fun m => (({} : Database).runScript e m.script).map fun _ => ()

/-- Brings the scheme of a database up to date, if the connection is open. -/
def Connection.migrate (e : Engine) (c : Connection) : Except EngineFault Unit × Connection :=
  if !c.isOpen then (.error .closed, c)
  else if c.isReadOnly && c.database.isBehind then (.error .readOnly, c)
  else
    let (r, d) := c.database.migrate e
    (r, { c with database := d })

end JobQueue
