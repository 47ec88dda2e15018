/-
  The command of the daemon.

  It takes its settings from the environment and serves jobs until its
  standard input ends.  The clock is the running clock of the machine, and
  what the daemon keeps in files stays in the memory of the process.
-/
import JobQueue.Daemon.Logging
import JobQueue.Daemon.Run

namespace JobQueue.Command

open Daemon Log

/-- The variables that are looked at. -/
def keys : List String :=
  [Settings.databaseUrlKey, Settings.queuesKey, Settings.labelKey, Settings.workerCountKey,
    Settings.pollIntervalKey, Settings.jobTimeoutKey, Settings.shutdownTimeoutKey,
    Settings.cleanupIntervalKey, Settings.cleanupRetentionKey, Settings.rateLimitingKey,
    Settings.perHourKey, Settings.concurrentKey, Settings.maxBackoffKey,
    Settings.recoveryWindowKey, Sinks.filterKey, Sinks.formatKey, "HOME"]

/-- The environment, as far as it is looked at. -/
def environment : IO Variables := do
  let values ← keys.mapM fun key => return (key, ← IO.getEnv key)
  return fun key => (values.find? (·.1 == key)).bind (·.2)

/-- Writes the events that the filter lets through. -/
def say (sinks : Sinks) (events : List Event) : IO Unit := do
  let out ← IO.getStdout
  for e in sinks.written events do
    out.write (if sinks.json then ⟨(Json.write e.json ++ [10]).toArray⟩
      else (e.words ++ "\n").toUTF8)
  out.flush

/-- The handlers of the daemon. -/
def handlers : Registry (Job → Outcome HandlerResult) :=
  Registry.empty.register echoType fun job => .success (.ok (some job.payload))

/-- Every worker has its turn. -/
def poll (s : Settings) (pool : String) (now : Millis) (store : AnyStore) : AnyStore :=
  (List.range s.pool.workerCount).foldl (fun store n =>
    (processNext s.pool.rateLimiting handlers (AnyStore.store s.rules) now
      (Pool.workerName s.pool.label pool (n + 1)) ⟨s.queues⟩ store).2) store

/-- How long the daemon rests between two looks at its tickers, in milliseconds. -/
def rest : UInt32 := 20

/-- Serves jobs and cleans up, each on its own beat, until the input ends. -/
partial def serve (s : Settings) (pool : String) (isOver : IO Bool) (polls cleanups : Ticker)
    (store : AnyStore) : IO AnyStore := do
  if ← isOver then return store
  let now := Instant.ofTick (← IO.monoMsNow)
  let time := clamp now.tick
  let store := if polls.isDue now.tick then poll s pool time store else store
  let store := if cleanups.isDue now.tick
    then (cleanUp (AnyStore.store s.rules) time s.pool.cleanupRetention store).2 else store
  IO.sleep rest
  serve s pool isOver (if polls.isDue now.tick then polls.take now else polls)
    (if cleanups.isDue now.tick then cleanups.take now else cleanups) store

/-- Reads the input to its end. -/
partial def drain (input : IO.FS.Stream) : IO Unit := do
  if (← input.getLine).isEmpty then return
  drain input

/-- Runs the daemon, and gives its exit status. -/
def run : IO UInt32 := do
  let vars ← environment
  let host : Host := { home := vars "HOME", workingDirectory := [] }
  let some sinks := Sinks.ofVariables? vars | return brokeOffStatus.toUInt32
  let now := Instant.ofTick (← IO.monoMsNow)
  match bringUp vars (clamp now.tick) host with
  | .error e =>
    say sinks e.events
    (← IO.getStderr).putStr e.complaint
    return e.exitStatus.toUInt32
  | .ok d =>
    say sinks d.events
    let input ← IO.asTask (drain (← IO.getStdin)) Task.Priority.dedicated
    let pool := Text.hex (← IO.rand 0x10000000 0xffffffff)
    let setup := d.settings.pool
    discard <| serve d.settings pool (IO.hasFinished input) (.start setup.pollInterval now)
      ((Ticker.start setup.cleanupInterval now).take now) d.opened.store
    say sinks (d.closingEvents (.ok .nothing))
    return 0

end JobQueue.Command

def main : IO UInt32 := JobQueue.Command.run
