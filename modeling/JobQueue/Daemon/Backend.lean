/-
  Which kind of store a database URL names.

  `memory` names a store that ends with the process, `postgres://…` and
  `postgresql://…` a database server, `sqlite:…` a database file.  Anything
  else is the path of a database file, in which a leading `~` stands for the
  home directory.
-/
import JobQueue.Text.Blank

namespace JobQueue

/-- A kind of store, with the URL it is found at. -/
inductive Backend where
  | postgres (url : String)
  | sqlite (url : String)
  | memory
  deriving DecidableEq, Repr

namespace Backend

/-- A path in which a `~` that stands alone or before a `/` is the home directory. -/
def expandTilde (home : Option String) (path : String) : String :=
  match path.toList, home with
  | ['~'], some home => home
  | '~' :: '/' :: rest, some home => home ++ String.ofList ('/' :: rest)
  | _, _ => path

/-- The store that a URL names. -/
def ofUrl (home : Option String) (url : String) : Backend :=
  if url = "memory" ∨ url = "memory://" then .memory
  else if Text.hasStart "postgres://" url || Text.hasStart "postgresql://" url then .postgres url
  else if Text.hasStart "sqlite:" url then .sqlite url
  else .sqlite ("sqlite://" ++ expandTilde home url)

/-- Does the URL of a database file stand for a database in memory? -/
def isMemoryUrl (url : String) : Bool :=
  Text.occursIn ":memory:".toList url.toList || Text.occursIn "mode=memory".toList url.toList

/-- A text without its scheme, if it begins with it. -/
def stripScheme? (url : List Char) : Option (List Char) :=
  match Text.stripStart? "sqlite://".toList url with
  | some rest => some rest
  | none => Text.stripStart? "sqlite:".toList url

/-- The path in the URL of a database file: what stands between the scheme and the first `?`.
    A database in memory has none, and neither has an empty path. -/
def sqliteFile? (url : String) : Option String :=
  if isMemoryUrl url then none
  else (stripScheme? url.toList).bind fun rest =>
    let path := rest.takeWhile (· ≠ '?')
    if path.isEmpty then none else some (String.ofList path)

end Backend

end JobQueue
