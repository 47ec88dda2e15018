/-
  Where log events go.

  Events go to the standard output, and also to a file of the day if a
  directory is set for it.  The file holds JSON; the standard output holds JSON
  or a text for human readers.
-/
import JobQueue.Daemon.Files
import JobQueue.Daemon.Log
import JobQueue.Daemon.Settings
import JobQueue.Json.Writer

namespace JobQueue.Log

/-- Where events go. -/
structure Sinks where
  filter : Filter
  /-- Is the standard output JSON? -/
  json : Bool
  /-- The file of the day, if there is one. -/
  file : Option Place
  deriving DecidableEq, Repr

namespace Sinks

def filterKey : String := "RUST_LOG"
def formatKey : String := "WORKQ_LOG_FORMAT"
def directoryKey : String := "WORKQ_LOG_DIR"

/-- The name of the file of a day. -/
def fileName (day : String) : String := "workqd.log." ++ day

/-- Why the sinks cannot be set up. -/
inductive SinksFault where
  | filter
  | directory (why : FilesFault)
  deriving DecidableEq, Repr

/-- The sinks that the variables ask for, as far as they are no files. -/
def ofVariables? (vars : Variables) : Option Sinks :=
  (Filter.ofVariable? (vars filterKey)).map fun filter =>
    ⟨filter, vars formatKey = some "json", none⟩

/-- Sets up the sinks that the variables ask for, and makes the file of the day with the
    directories on the way to it. -/
def setUp (vars : Variables) (day : String) (workingDirectory : Place) (files : Files) :
    Except SinksFault Sinks × Files :=
  match ofVariables? vars with
  | none => (.error .filter, files)
  | some sinks =>
    match vars directoryKey with
    | none => (.ok sinks, files)
    | some path =>
      match files.makeDirectory workingDirectory path with
      | (.error why, files) => (.error (.directory why), files)
      | (.ok (), files) =>
        let place := Place.ofPath workingDirectory path ++ [fileName day]
        (.ok { sinks with file := some place }, files.makeFile place)

/-- The events that are written. -/
def written (s : Sinks) (events : List Event) : List Event := events.filter s.filter.allows

end Sinks

/-! ## Lines -/

def Value.json : Value → Json
  | text s => .string s
  | number n => .integer n
  | flag b => .bool b

def Value.words : Value → String
  | text s => s
  | number n => toString n
  | flag b => toString b

namespace Event

/-- An event as a JSON object. -/
def json (e : Event) : Json :=
  .object [("level", .string e.level.name), ("target", .string e.target),
    ("fields", .object (("message", .string e.message) ::
      e.fields.map fun (k, v) => (k, v.json)))]

/-- An event for human readers. -/
def words (e : Event) : String :=
  e.level.name ++ " " ++ e.target ++ ": " ++ e.message ++
    String.join (e.fields.map fun (k, v) => " " ++ k ++ "=" ++ v.words)

end Event

/-- The status of a process that broke off. -/
def brokeOffStatus : Nat := 101

end JobQueue.Log
