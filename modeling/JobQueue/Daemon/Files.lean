/-
  Files and directories, as far as the daemon makes them.

  The system follows a path name by name.  Every name but the last one has to
  be a directory, and no name may be too long.  `makeDirectory` makes a
  directory with all those above it that are missing; what it has made stays
  when a later one cannot be made.
-/
import JobQueue.Daemon.Path

namespace JobQueue

/-- The tree: its directories besides the root, and its files. -/
structure Files where
  directories : List Place := []
  files : List Place := []
  deriving DecidableEq, Repr, Inhabited

/-- Why the system refuses a path. -/
inductive FilesFault where
  | noEntry
  | fileExists
  | notADirectory
  | nameTooLong
  | zeroByte
  deriving DecidableEq, Repr

/-- The fault in the words of the system. -/
def FilesFault.message : FilesFault → String
  | noEntry => "No such file or directory (os error 2)"
  | fileExists => "File exists (os error 17)"
  | notADirectory => "Not a directory (os error 20)"
  | nameTooLong => "File name too long (os error 36)"
  | zeroByte => "file name contained an unexpected NUL byte"

namespace Files

/-- The greatest length of a name, in bytes. -/
def longestName : Nat := 255

/-- The greatest length of a path, in bytes. -/
def longestPath : Nat := 4095

def isDirectory (f : Files) (p : Place) : Bool := p.isEmpty || f.directories.contains p

def isFile (f : Files) (p : Place) : Bool := f.files.contains p

/-- Goes into a directory. -/
def enter (f : Files) (p : Place) (name : String) : Except FilesFault Place :=
  let next := p.step name
  if longestName < name.utf8ByteSize then .error .nameTooLong
  else if f.isDirectory next then .ok next
  else .error (if f.isFile next then .notADirectory else .noEntry)

/-- Follows names through directories. -/
def follow (f : Files) (p : Place) (names : List String) : Except FilesFault Place :=
  names.foldlM f.enter p

/-- The names of a path. -/
def namesOf (path : String) : Except FilesFault (List String) :=
  if path.toList.contains '\x00' then .error .zeroByte
  else if longestPath < path.utf8ByteSize then .error .nameTooLong
  else .ok ((Text.split '/' path).filter fun name => !name.isEmpty)

/-- Makes the directory that a path names, in a directory that exists. -/
def makeOne (f : Files) (workingDirectory : Place) (path : String) : Except FilesFault Files := do
  let names ← namesOf path
  let above ← f.follow (.start workingDirectory path) names.dropLast
  match names.getLast? with
  | none => throw (if path.isEmpty then .noEntry else .fileExists)
  | some name =>
    let place := above.step name
    if longestName < name.utf8ByteSize then throw .nameTooLong
    else if name = "." ∨ name = ".." ∨ f.isDirectory place ∨ f.isFile place then throw .fileExists
    else return { f with directories := f.directories ++ [place] }

/-- Is there a directory at the end of a path? -/
def hasDirectory (f : Files) (workingDirectory : Place) (path : String) : Bool :=
  match (namesOf path).bind (f.follow (.start workingDirectory path)) with
  | .ok _ => true
  | .error _ => false

/-- Makes the first of some directories, each of which is in the next one.  Those that are missing
    are made, beginning with the last. -/
def makeFirst (f : Files) (workingDirectory : Place) :
    List String → Except FilesFault Unit × Files
  | [] => (.ok (), f)
  | path :: above =>
    let make (f : Files) : Except FilesFault Unit × Files :=
      match f.makeOne workingDirectory path with
      | .ok f => (.ok (), f)
      | .error why =>
        if why = .fileExists ∧ f.hasDirectory workingDirectory path then (.ok (), f)
        else (.error why, f)
    match make f with
    | (.error .noEntry, f) =>
      match makeFirst f workingDirectory above with
      | (.ok (), f) => make f
      | failed => failed
    | done => done

/-- Makes the directory that a path names, with all those above it. -/
def makeDirectory (f : Files) (workingDirectory : Place) (path : String) :
    Except FilesFault Unit × Files :=
  f.makeFirst workingDirectory (Path.ancestors path)

/-- Makes an empty file, unless it exists. -/
def makeFile (f : Files) (p : Place) : Files :=
  if f.isFile p then f else { f with files := f.files ++ [p] }

/-- What lies below a place: paths from there, directories with a closing `/`, in the order of
    their bytes. -/
def below (f : Files) (root : Place) : List String :=
  let inside (p : Place) : Option Place :=
    if root.isPrefixOf p ∧ p ≠ root then some (p.drop root.length) else none
  let dirs := (f.directories.filterMap inside).map fun p => "/".intercalate p ++ "/"
  let files := (f.files.filterMap inside).map fun p => "/".intercalate p
  (dirs ++ files).mergeSort fun a b => a.toUTF8.data.toList ≤ b.toUTF8.data.toList

end Files

end JobQueue
