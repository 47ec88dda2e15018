/-
  The URL of a database file.

  Behind the scheme stands the path of the file, with percent signs, and
  behind a `?` stand options on how to open it.
-/
import JobQueue.Store.Engine
import JobQueue.Text.Percent
import JobQueue.Text.Quoted

namespace JobQueue

/-- Where a database is, and how it is to be opened. -/
structure FileAddress where
  /-- The path of the file; empty for a database of the connection's own. -/
  path : String
  inMemory : Bool := false
  /-- May connections share what they keep in memory? -/
  shared : Bool := false
  readOnly : Bool := false
  /-- Is the file one that nobody changes? -/
  immutable : Bool := false
  /-- The name of the layer between the engine and the system, if it is not the usual one. -/
  layer : Option String := none
  deriving DecidableEq, Repr

namespace FileAddress

/-- A text without the prefix, as often as it begins with it. -/
def stripAll (p s : List Char) : List Char :=
  match Text.stripStart? p s with
  | none => s
  | some r => if r.length < s.length then stripAll p r else s
termination_by s.length

/-- Sets an option. -/
def setOption (a : FileAddress) (key value : String) : Except EngineFault FileAddress :=
  let refuse : Except EngineFault FileAddress :=
    .error (.configuration ("unknown value " ++ Text.quote value ++ " for `" ++ key ++ "`"))
  if key = "mode" then
    if value = "ro" then .ok { a with readOnly := true }
    else if value = "rw" ∨ value = "rwc" then .ok a
    else if value = "memory" then .ok { a with inMemory := true, shared := true }
    else refuse
  else if key = "cache" then
    if value = "private" then .ok { a with shared := false }
    else if value = "shared" then .ok { a with shared := true }
    else refuse
  else if key = "immutable" then
    if value = "true" ∨ value = "1" then .ok { a with immutable := true }
    else if value = "false" ∨ value = "0" then .ok { a with immutable := false }
    else refuse
  else if key = "vfs" then .ok { a with layer := some value }
  else .error (.configuration
    ("unknown query parameter `" ++ key ++ "` while parsing connection URL"))

/-- The name under which a database in memory is shared. -/
def memoryName : String := "file:memory"

/-- The file that a URL names. -/
def ofUrl (url : String) : Except EngineFault FileAddress :=
  let rest := stripAll "sqlite:".toList (stripAll "sqlite://".toList url.toList)
  let path := String.ofList (rest.takeWhile (· ≠ '?'))
  let query := String.ofList ((rest.dropWhile (· ≠ '?')).drop 1)
  let start : Except EngineFault FileAddress :=
    if path = ":memory:" then .ok { path := memoryName, inMemory := true, shared := true }
    else match Percent.decode path with
      | .ok path => .ok { path := path }
      | .error why => .error (.configuration why.message)
  start.bind fun a => (Percent.fields query).foldlM (fun a (k, v) => a.setOption k v) a

end FileAddress

end JobQueue
