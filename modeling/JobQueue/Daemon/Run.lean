/-
  The daemon.

  It reads its settings, opens the store, puts lost jobs back, and runs its
  workers and the cleanup until it is told to stop; then it waits for the jobs
  in progress.  The one handler it has, `echo`, returns the payload of the job.
-/
import JobQueue.Daemon.Log
import JobQueue.Daemon.Opening
import JobQueue.Simulation.Run

namespace JobQueue.Daemon

open Log Simulation

/-- The type of the jobs that the daemon itself has a handler for. -/
def echoType : String := "echo"

def version : String := "0.1.0"

/-- How a run of the daemon ended. -/
structure Ending where
  exitStatus : Nat
  /-- What it wrote to the standard error. -/
  complaint : String
  /-- What it had to say, in order. -/
  events : List Event
  host : Host

/-! ## Events -/

def info (message : String) (fields : List (String × Value)) : Event :=
  ⟨.info, "workqd", message, fields⟩

/-- The event of opening a store. -/
def openingEvent : Backend → Event
  | .postgres _ => ⟨.info, "workqd::backend", "Initializing PostgreSQL backend...", []⟩
  | .sqlite url =>
    ⟨.info, "workqd::backend", "Initializing SQLite backend...", [("url", .text url)]⟩
  | .memory =>
    ⟨.info, "workqd::backend", "Using in-memory backend (jobs are not persisted)", []⟩

/-- The event of reading the settings. -/
def settingsEvent (s : Settings) : Event :=
  info "Configuration loaded"
    [("queues", .text (Text.quoteList s.queues)), ("workers", .number s.pool.workerCount),
      ("rate_limiting", .flag s.pool.rateLimiting)]

/-- An error with its kind, and its words quoted. -/
def inspect (e : Error) : String :=
  match e with
  | .database why => "Database(" ++ Text.quote why.message ++ ")"
  | .internal why => "Internal(" ++ Text.quote why.message ++ ")"
  | e => e.kind.name ++ "(" ++ Text.quote e.message ++ ")"

/-- The event of putting lost jobs back. -/
def recoveryEvent : Except Failure Nat → Event
  | .ok n => info "Crash recovery completed" [("recovered_jobs", .number n)]
  | .error (.error e) =>
    ⟨.error, "workqd", "Crash recovery failed", [("error", .text (inspect e))]⟩
  | .error .overflow => ⟨.error, "workqd", "Crash recovery failed", []⟩

/-- The event of a stop that did not go well, if there is one. -/
def stopEvents (timeout : Span) : Except Failure Answer → List Event
  | .error (.error (.shutdownTimeout _)) =>
    [⟨.warn, "workqd",
      "Workers still busy at shutdown timeout; their jobs will be recovered on next start",
      [("timeout_ms", .number timeout.wholeMillis)]⟩]
  | .error (.error e) =>
    [⟨.error, "workqd", "Worker pool stop failed", [("error", .text e.message)]⟩]
  | _ => []

/-! ## Running -/

/-- How the scenario of a daemon is set up: its clock is the time of day. -/
def setup (s : Settings) : Setup AnyStore where
  store := AnyStore.store s.rules
  failPair := AnyStore.failTwice s.rules
  followsTime := true
  pool := s.pool
  workerName := Pool.workerName s.pool.label "POOL"

/-- How many milliseconds a daemon runs that is never told to stop. -/
def longestRun : Nat := 60000

/-- Lets time pass until the daemon is told to stop. -/
def runUntil (s : Setup AnyStore) (isOver : AnyStore → Bool) : Nat → World AnyStore →
    World AnyStore
  | 0, w => w
  | n + 1, w =>
    if isOver w.store then w
    else runUntil s isOver n (w.step s (.sleep (.ofMillis 1))).2

/-- Runs the workers and the cleanup over an open store until the daemon is told to stop, and
    then until they have stopped. -/
def runWorkers (s : Settings) (clock : Millis) (isOver : AnyStore → Bool) (store : AnyStore) :
    Except Failure Answer × AnyStore :=
  let setup := setup s
  let w : World AnyStore := { store := store, ids := ⟨[], 0⟩, clock := clock }
  let w := (w.step setup (.register echoType [.echo])).2
  let w := (w.step setup (.start ⟨s.queues⟩)).2
  let w := (w.step setup .startCleanup).2
  let w := runUntil setup isOver longestRun w
  let (stopped, w) := w.step setup .stop
  let w := (w.step setup .parentShutdown).2
  let w := (w.step setup (.queue (.ask .close))).2
  (stopped, w.store)

/-- The words of an error that ended the daemon, and of what is behind it. -/
def complaintOf (message : String) (cause : Option String) : String :=
  "Error: " ++ message ++
    (match cause with
      | none => ""
      | some c => "\n\nCaused by:\n    " ++ c) ++ "\n"

/-- A daemon that is up: its store is open and its jobs are put back. -/
structure Session where
  settings : Settings
  host : Host
  opened : Opened
  /-- What it had to say so far. -/
  events : List Event

/-- Brings the daemon up, or ends it. -/
def bringUp (vars : Variables) (clock : Millis) (h : Host) : Except Ending Session :=
  let starting := [info ("Workq daemon v" ++ version ++ " starting...") []]
  match Settings.ofVariables vars with
  | .error why => .error ⟨1, complaintOf (Error.config why).message none, starting, h⟩
  | .ok s =>
    let opening := starting ++ [settingsEvent s, openingEvent (.ofUrl h.home s.databaseUrl)]
    match { h with environment := vars }.openStore s with
    | (.error f, h) => .error ⟨1, complaintOf f.message (some f.causeText), opening, h⟩
    | (.ok o, h) =>
      let (recovered, store) := recover (AnyStore.store s.rules) clock s.recoveryWindow o.store
      .ok ⟨s, h, { o with store := store }, opening ++
        [info "Running crash recovery..." [], recoveryEvent recovered,
          info "Starting worker pool..." [],
          info "System ready. Waiting for jobs..." [("handlers", .number 1)],
          info "Press Ctrl+C to shutdown" []]⟩

namespace Session

/-- What the host is left with when the store is in a certain state. -/
def leave (d : Session) (store : AnyStore) : Host := d.host.keep { d.opened with store := store }

/-- What is said when the daemon is told to stop and when it has stopped. -/
def closingEvents (d : Session) (stopped : Except Failure Answer) : List Event :=
  info "Shutdown signal received. Draining workers..." [] ::
    (stopEvents d.settings.pool.shutdownTimeout stopped ++ [info "Shutdown complete." []])

end Session

/-- Runs the daemon.  `isOver` looks at what the host would be left with and says when the daemon
    is told to stop. -/
def run (vars : Variables) (clock : Millis) (isOver : Host → Bool) (h : Host) : Ending :=
  match bringUp vars clock h with
  | .error e => e
  | .ok d =>
    let (stopped, store) :=
      runWorkers d.settings clock (fun store => isOver (d.leave store)) d.opened.store
    ⟨0, "", d.events ++ d.closingEvents stopped, d.leave store⟩

end JobQueue.Daemon
