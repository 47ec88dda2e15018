/-
  The settings of the daemon.

  Settings come from variables, each a text under a key.  A missing variable
  stands for a default; a number or a switch may have blanks around it.  The
  variables are read in a fixed order and the first one that is not accepted is
  reported.
-/
import JobQueue.Error
import JobQueue.RateLimit
import JobQueue.Sweep
import JobQueue.Text.Blank
import JobQueue.Worker.Setup

namespace JobQueue

/-- The variables that are set. -/
abbrev Variables := String → Option String

/-- What the daemon runs with. -/
structure Settings where
  databaseUrl : String
  /-- The queues that are served; none stands for all. -/
  queues : List String
  pool : PoolSetup
  limit : RateLimit
  maxBackoff : Option Span
  recoveryWindow : Span
  deriving DecidableEq, Repr

namespace Settings

def defaultDatabaseUrl : String := "~/.workq/jobs.db"

/-! ## Keys -/

def databaseUrlKey : String := "WORKQ_DATABASE_URL"
def queuesKey : String := "WORKQ_QUEUES"
def labelKey : String := "WORKQ_WORKER_ID_PREFIX"
def workerCountKey : String := "WORKQ_WORKER_COUNT"
def pollIntervalKey : String := "WORKQ_POLL_INTERVAL_MS"
def jobTimeoutKey : String := "WORKQ_JOB_TIMEOUT_MS"
def shutdownTimeoutKey : String := "WORKQ_SHUTDOWN_TIMEOUT_MS"
def cleanupIntervalKey : String := "WORKQ_CLEANUP_INTERVAL_MS"
def cleanupRetentionKey : String := "WORKQ_CLEANUP_RETENTION_MS"
def rateLimitingKey : String := "WORKQ_RATE_LIMITING"
def perHourKey : String := "WORKQ_MAX_JOBS_PER_HOUR"
def concurrentKey : String := "WORKQ_MAX_CONCURRENT_JOBS"
def maxBackoffKey : String := "WORKQ_MAX_BACKOFF_MS"
def recoveryWindowKey : String := "WORKQ_RECOVERY_WINDOW_MS"

/-! ## Single variables -/

variable (vars : Variables)

/-- Reads a variable, if it is set. -/
def read {α : Type} (key : String) (parse : String → Except SettingFault α) :
    Except SettingFault (Option α) :=
  match vars key with
  | none => .ok none
  | some raw => (parse raw).map some

/-- A number of at most 64 bits. -/
def natural (key raw : String) : Except SettingFault Nat :=
  match Literal.readNat Literal.max64 (Text.trimChars raw.toList) with
  | .ok n => .ok n
  | .error why => .error (.number key raw why)

/-- A number of 64 bits, one of them for the sign. -/
def integer (key raw : String) : Except SettingFault Int64 :=
  match Literal.readInt 0x8000000000000000 0x7fffffffffffffff (Text.trimChars raw.toList) with
  | .ok n => .ok (Int64.ofInt n)
  | .error why => .error (.number key raw why)

/-- A span, in milliseconds. -/
def millis (key raw : String) : Except SettingFault Span := (natural key raw).map Span.ofMillis

/-- A span that is not zero. -/
def positiveMillis (key raw : String) : Except SettingFault Span :=
  match millis key raw with
  | .ok d => if d = .zero then .error (.zero key) else .ok d
  | .error why => .error why

/-- A switch: one of the words for on and off, in any case. -/
def switch (key raw : String) : Except SettingFault Bool :=
  let word := String.ofList ((Text.trimChars raw.toList).map Char.toLower)
  if word ∈ ["1", "true", "yes", "on"] then .ok true
  else if word ∈ ["0", "false", "no", "off"] then .ok false
  else .error (.flag key raw)

/-- The names in a list with commas, without the blanks around them; empty ones do not count. -/
def names (raw : String) : List String :=
  ((Text.split ',' raw).map Text.trim).filter fun q => !q.isEmpty

/-- The first part of the names of the workers: any text that is not blank. -/
def label (default : String) : String :=
  ((vars labelKey).filter fun p => !Text.allBlank p).getD default

/-! ## All variables -/

/-- Reads the settings. -/
def ofVariables : Except SettingFault Settings := do
  let d : PoolSetup := {}
  let workerCount ← read vars workerCountKey (natural workerCountKey)
  let pollInterval ← read vars pollIntervalKey (positiveMillis pollIntervalKey)
  let jobTimeout ← read vars jobTimeoutKey (positiveMillis jobTimeoutKey)
  let shutdownTimeout ← read vars shutdownTimeoutKey (millis shutdownTimeoutKey)
  let cleanupInterval ← read vars cleanupIntervalKey (positiveMillis cleanupIntervalKey)
  let cleanupRetention ← read vars cleanupRetentionKey (millis cleanupRetentionKey)
  let rateLimiting ← read vars rateLimitingKey (switch rateLimitingKey)
  let perHour ← read vars perHourKey (integer perHourKey)
  let concurrent ← read vars concurrentKey (integer concurrentKey)
  let maxBackoff ← read vars maxBackoffKey (positiveMillis maxBackoffKey)
  let recoveryWindow ← read vars recoveryWindowKey (millis recoveryWindowKey)
  return {
    databaseUrl := (vars databaseUrlKey).getD defaultDatabaseUrl
    queues := ((vars queuesKey).map names).getD []
    pool := {
      workerCount := workerCount.getD d.workerCount
      pollInterval := pollInterval.getD d.pollInterval
      jobTimeout := jobTimeout.getD d.jobTimeout
      shutdownTimeout := shutdownTimeout.getD d.shutdownTimeout
      cleanupInterval := cleanupInterval.getD d.cleanupInterval
      cleanupRetention := cleanupRetention.getD d.cleanupRetention
      rateLimiting := rateLimiting.getD d.rateLimiting
      label := label vars d.label }
    limit := ⟨perHour.getD RateLimit.default.perHour,
      concurrent.getD RateLimit.default.concurrent⟩
    maxBackoff := maxBackoff
    recoveryWindow := recoveryWindow.getD defaultRecoveryWindow }

/-- The rules that a store gets from the settings. -/
def rules (s : Settings) : Rules where
  retry := match s.maxBackoff with
    | none => .default
    | some d => RetryPolicy.default.withCap d
  limit := s.limit

end Settings

end JobQueue
