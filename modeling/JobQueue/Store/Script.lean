/-
  The texts of the scripts that set up the tables.

  A script is a text of statements, each with a semicolon behind it, and of
  comments that fill whole lines.  `Script.statements` takes it apart without
  knowing the language of the statements: it goes by semicolons, lines and
  dashes.  The engine then gets the statements one by one, as texts.
-/
import JobQueue.Store.Migration
import JobQueue.Text.Blank

namespace JobQueue

namespace Text

/-- The lines of a text, given the pieces between its line feeds: a carriage return at the end of a
    line belongs to the line feed behind it, and there is no line behind the last line feed. -/
def linesOf : List (List Char) → List (List Char)
  | [] => []
  | [last] => if last.isEmpty then [] else [last]
  | line :: rest => (if line.getLast? = some '\r' then line.dropLast else line) :: linesOf rest

/-- The lines of a text. -/
def lines (cs : List Char) : List (List Char) := linesOf (splitChars '\n' cs)

end Text

namespace Script

/-- Is the line a comment? -/
def isComment (line : List Char) : Bool :=
  (Text.stripStart? ['-', '-'] (Text.trimChars line)).isSome

/-- A piece of a script without the comments in it and the blank characters around it. -/
def clean (piece : List Char) : List Char :=
  Text.trimChars (['\n'].intercalate ((Text.lines piece).filter fun line => !isComment line))

/-- The statements of a script. -/
def statements (script : String) : List String :=
  (((Text.splitChars ';' script.toList).map clean).filter fun piece => !piece.isEmpty).map
    String.ofList

/-- A statement of a script: its text, what it changes, and what stands in the script before it. -/
structure Part where
  remark : String
  text : String
  meaning : SchemeStatement

end Script

/-! ## The scripts -/

namespace Migration

/-- The jobs in a file, with times as milliseconds. -/
def fileJobs : List Script.Part :=
  [{ remark :=
        "-- Migration 001: jobs table\n-- Timestamps are epoch milliseconds. rowid is the FIFO tiebreak.\n\n",
      text := "CREATE TABLE IF NOT EXISTS schema_version (
    version INTEGER PRIMARY KEY,
    applied_at INTEGER NOT NULL
)",
      meaning := .createVersions },
    { remark := "\n\n",
      text := "CREATE TABLE IF NOT EXISTS jobs (
    id TEXT PRIMARY KEY,
    queue_name TEXT NOT NULL,
    job_type TEXT NOT NULL,
    org_id TEXT NOT NULL,
    payload BLOB NOT NULL,
    priority INTEGER NOT NULL DEFAULT 0,
    scheduled_at INTEGER NOT NULL,
    created_at INTEGER NOT NULL,
    status TEXT NOT NULL DEFAULT 'pending'
        CHECK (status IN ('pending', 'processing', 'completed', 'failed')),
    attempt_count INTEGER NOT NULL DEFAULT 0,
    max_attempts INTEGER NOT NULL DEFAULT 3,
    started_at INTEGER,
    completed_at INTEGER,
    worker_id TEXT,
    result BLOB,
    error_message TEXT
)",
      meaning := .createJobs },
    { remark := "\n\n-- Dequeue scan: eligible jobs by priority then age\n",
      text := "CREATE INDEX IF NOT EXISTS idx_jobs_dequeue
    ON jobs (status, queue_name, priority DESC, created_at ASC)",
      meaning := .createIndex "idx_jobs_dequeue" },
    { remark := "\n\n-- Concurrent-slot count per tenant\n",
      text := "CREATE INDEX IF NOT EXISTS idx_jobs_org_queue_status
    ON jobs (org_id, queue_name, status)",
      meaning := .createIndex "idx_jobs_org_queue_status" },
    { remark := "\n\n-- Retention sweep\n",
      text := "CREATE INDEX IF NOT EXISTS idx_jobs_status_completed
    ON jobs (status, completed_at)",
      meaning := .createIndex "idx_jobs_status_completed" },
    { remark := "\n\n",
      text := "INSERT INTO schema_version (version, applied_at)
    VALUES (1, CAST(strftime('%s', 'now') AS INTEGER) * 1000)",
      meaning := .noteVersion 1 }]

/-- The limits in a file. -/
def fileLimits : List Script.Part :=
  [{ remark :=
        "-- Migration 002: per-(organization, queue) rate limiting\n-- NULL max_* columns fall back to the repository defaults.\n\n",
      text := "CREATE TABLE IF NOT EXISTS rate_limits (
    org_id TEXT NOT NULL,
    queue_name TEXT NOT NULL,
    window_start INTEGER NOT NULL DEFAULT 0,
    jobs_in_window INTEGER NOT NULL DEFAULT 0,
    max_jobs_per_hour INTEGER,
    max_concurrent_jobs INTEGER,
    PRIMARY KEY (org_id, queue_name)
)",
      meaning := .createTenants },
    { remark := "\n\n",
      text := "INSERT INTO schema_version (version, applied_at)
    VALUES (2, CAST(strftime('%s', 'now') AS INTEGER) * 1000)",
      meaning := .noteVersion 2 }]

/-- The jobs on a server, with a column for the identity. -/
def serverJobs : List Script.Part :=
  [{ remark :=
        "-- Migration 001: jobs table\n-- Timestamps are epoch milliseconds. seq is the FIFO tiebreak.\n\n",
      text := "CREATE TABLE IF NOT EXISTS schema_version (
    version BIGINT PRIMARY KEY,
    applied_at BIGINT NOT NULL
)",
      meaning := .createVersions },
    { remark := "\n\n",
      text := "CREATE TABLE IF NOT EXISTS jobs (
    id TEXT PRIMARY KEY,
    seq BIGINT GENERATED ALWAYS AS IDENTITY,
    queue_name TEXT NOT NULL,
    job_type TEXT NOT NULL,
    org_id TEXT NOT NULL,
    payload BYTEA NOT NULL,
    priority INTEGER NOT NULL DEFAULT 0,
    scheduled_at BIGINT NOT NULL,
    created_at BIGINT NOT NULL,
    status TEXT NOT NULL DEFAULT 'pending'
        CHECK (status IN ('pending', 'processing', 'completed', 'failed')),
    attempt_count INTEGER NOT NULL DEFAULT 0,
    max_attempts INTEGER NOT NULL DEFAULT 3,
    started_at BIGINT,
    completed_at BIGINT,
    worker_id TEXT,
    result BYTEA,
    error_message TEXT
)",
      meaning := .createJobs },
    { remark := "\n\n-- Dequeue scan over pending rows only\n",
      text := "CREATE INDEX IF NOT EXISTS idx_jobs_dequeue
    ON jobs (priority DESC, created_at ASC, seq ASC)
    WHERE status = 'pending'",
      meaning := .createIndex "idx_jobs_dequeue" },
    { remark := "\n\n",
      text := "CREATE INDEX IF NOT EXISTS idx_jobs_org_queue_status
    ON jobs (org_id, queue_name, status)",
      meaning := .createIndex "idx_jobs_org_queue_status" },
    { remark := "\n\n",
      text := "CREATE INDEX IF NOT EXISTS idx_jobs_status_completed
    ON jobs (status, completed_at)",
      meaning := .createIndex "idx_jobs_status_completed" },
    { remark := "\n\n",
      text := "INSERT INTO schema_version (version, applied_at)
    VALUES (1, (EXTRACT(EPOCH FROM now()) * 1000)::BIGINT)",
      meaning := .noteVersion 1 }]

/-- The limits on a server. -/
def serverLimits : List Script.Part :=
  [{ remark :=
        "-- Migration 002: per-(organization, queue) rate limiting\n-- NULL max_* columns fall back to the repository defaults.\n\n",
      text := "CREATE TABLE IF NOT EXISTS rate_limits (
    org_id TEXT NOT NULL,
    queue_name TEXT NOT NULL,
    window_start BIGINT NOT NULL DEFAULT 0,
    jobs_in_window BIGINT NOT NULL DEFAULT 0,
    max_jobs_per_hour BIGINT,
    max_concurrent_jobs BIGINT,
    PRIMARY KEY (org_id, queue_name)
)",
      meaning := .createTenants },
    { remark := "\n\n",
      text := "INSERT INTO schema_version (version, applied_at)
    VALUES (2, (EXTRACT(EPOCH FROM now()) * 1000)::BIGINT)",
      meaning := .noteVersion 2 }]

/-- The statements of a script with their texts. -/
def parts (e : Engine) (m : Migration) : List Script.Part :=
  match e with
  | .sqlite => if m.version = 1 then fileJobs else fileLimits
  | .postgres => if m.version = 1 then serverJobs else serverLimits

/-- The text of a script. -/
def text (e : Engine) (m : Migration) : String :=
  String.join ((m.parts e).map fun p => p.remark ++ p.text ++ ";") ++ "\n"

end Migration

/-! ## Statements as texts -/

namespace Engine

/-- The statements that an engine is given, and what they change. -/
def vocabulary (e : Engine) : Keyed String SchemeStatement :=
  (Migration.all.flatMap (·.parts e)).map fun p => (p.text, p.meaning)

/-- The fault of a text that is no statement. -/
def syntaxError : Engine → EngineFault
  | .sqlite => .reported (some "1") "syntax error"
  | .postgres => .reported (some "42601") "syntax error"

end Engine

/-- Makes a statement on the scheme that is given as a text. -/
def Database.execute (e : Engine) (d : Database) (text : String) : Except EngineFault Database :=
  match e.vocabulary.get? text with
  | none => .error e.syntaxError
  | some statement => d.change e statement

end JobQueue
