/-
  Faults that a database engine, or the way to it, can report, and how the
  queue words them.

  The queue keeps its jobs in one of two engines.  Both report a fault as a
  message with a code of the engine's own; the codes that a caller can act on
  (a key used twice, a violated check, a locked file, a conflict between
  transactions) are put into words, every other code is shown in brackets.
-/

namespace JobQueue

/-- The two database engines. -/
inductive Engine where
  | sqlite
  | postgres
  deriving DecidableEq, Repr

/-- What went wrong below the queue. -/
inductive EngineFault where
  /-- The engine refused a statement. -/
  | reported (code : Option String) (message : String)
  | rowNotFound
  | columnNotFound (column : String)
  /-- No connection became free in time. -/
  | timedOut
  /-- The connections were given back for good. -/
  | closed
  /-- The task behind the connection ended. -/
  | crashed
  /-- The engine sent something unexpected. -/
  | protocol (message : String)
  /-- The address could not be understood. -/
  | configuration (message : String)
  /-- The operating system refused the connection. -/
  | io (message : String)
  /-- The connection could not be encrypted. -/
  | encryption (message : String)
  deriving DecidableEq, Repr

namespace EngineFault

/-- A coded fault of the file engine in words. -/
def sqliteText (code message : String) : String :=
  if code = "2067" ∨ code = "1555" then
    "Unique constraint violation: " ++ message ++ " (" ++ code ++ ")"
  else if code = "275" then
    "Check constraint violation: " ++ message ++ " (" ++ code ++ ")"
  else if code = "5" ∨ code = "261" ∨ code = "517" then
    "Database locked (SQLITE_BUSY): " ++ message
  else if code = "13" then "Database full: " ++ message
  else "Database error [" ++ code ++ "]: " ++ message

/-- A coded fault of the server engine in words. -/
def postgresText (code message : String) : String :=
  if code = "23505" then "Unique constraint violation: " ++ message
  else if code = "23514" then "Check constraint violation: " ++ message
  else if code = "40001" ∨ code = "40P01" then
    "Transaction conflict (serialization failure or deadlock): " ++ message
  else if code = "57014" then "Query cancelled: " ++ message
  else "Database error [" ++ code ++ "]: " ++ message

/-- The fault in words. -/
def text (engine : Engine) : EngineFault → String
  | reported (some code) message =>
    match engine with
    | .sqlite => sqliteText code message
    | .postgres => postgresText code message
  | reported none message => "Database error: " ++ message
  | rowNotFound => "Row not found"
  | columnNotFound column => "Column not found: " ++ column
  | timedOut => "Timed out waiting for a database connection"
  | closed => "attempted to acquire a connection on a closed pool"
  | crashed => "attempted to communicate with a crashed background worker"
  | protocol message => "encountered unexpected or invalid data: " ++ message
  | configuration message => "error with configuration: " ++ message
  | io message => "error communicating with database: " ++ message
  | encryption message =>
    "error occurred while attempting to establish a TLS connection: " ++ message

end EngineFault

end JobQueue
