/-
  The names under which the file engine opens databases.

  A name that begins with `file:` is a URI: behind the scheme it may name the
  host, which has to be this one, then it has the path with percent signs, and
  behind a `?` parameters.  Every other name is a path.  Without a path, or in
  memory, a database has no file; it then lasts as long as its connection,
  unless it is shared under its name.
-/
import JobQueue.Daemon.FileAddress

namespace JobQueue

/-- How a database may be used. -/
inductive Access where
  | readOnly
  | readWrite
  /-- Its file is made if it does not exist. -/
  | create
  deriving DecidableEq, Repr

/-- How much an access allows. -/
def Access.rank : Access → Nat
  | readOnly => 1
  | readWrite => 2
  | create => 6

/-- What the engine is asked to open. -/
structure FileName where
  path : String
  access : Access
  inMemory : Bool
  shared : Bool
  /-- Is the name a URI? -/
  isUri : Bool := false
  immutable : Bool := false
  /-- Is the file used without locks? -/
  unlocked : Bool := false
  /-- The layer between the engine and the system. -/
  layer : String := "unix"
  deriving DecidableEq, Repr

namespace FileName

/-- A text without the part behind a zero byte. -/
def cutAtZero (s : String) : String := String.ofList (s.toList.takeWhile (· ≠ '\x00'))

/-- A part of a URI without percent signs. -/
def decodePart (cs : List Char) : String :=
  cutAtZero (Utf8.lossy (Percent.decodeBytes (Utf8.encode (String.ofList cs))))

/-- The parameters behind the `?` of a URI; those without a name do not count. -/
def parameters (cs : List Char) : List (String × String) :=
  ((Text.splitChars '&' cs).map fun p =>
    let (name, value) := Percent.splitField p
    (decodePart name, decodePart value)).filter fun (name, _) => !name.isEmpty

/-- Does the value of a parameter mean yes? -/
def isYes (value : String) : Bool :=
  match value.toList.takeWhile Char.isDigit with
  | [] => value.toLower ∈ ["on", "yes", "true"]
  | digits => digits.any (· ≠ '0')

/-- The value of the first parameter with a name means yes. -/
def isSet (parameters : List (String × String)) (name : String) : Bool :=
  (parameters.find? (·.1 == name)).any fun p => isYes p.2

/-- The access that a word stands for. -/
def accessOf? (word : String) : Option Access :=
  if word = "ro" then some .readOnly
  else if word = "rw" then some .readWrite
  else if word = "rwc" then some .create
  else none

/-- Takes a parameter into account.  The access can only be narrowed, but in memory all is
    allowed. -/
def setParameter (n : FileName) (name value : String) : Except EngineFault FileName :=
  if name = "vfs" then .ok { n with layer := value }
  else if name = "cache" then
    if value = "shared" then .ok { n with shared := true }
    else if value = "private" then .ok { n with shared := false }
    else .error (.reported (some "1") ("no such cache mode: " ++ value))
  else if name = "mode" then
    if value = "memory" then .ok { n with inMemory := true, access := .readWrite }
    else match accessOf? value with
      | none => .error (.reported (some "1") ("no such access mode: " ++ value))
      | some access =>
        if n.inMemory ∨ access.rank ≤ n.access.rank then
          .ok { n with inMemory := false, access := access }
        else .error (.reported (some "3") ("access mode not allowed: " ++ value))
  else .ok n

/-- The layers that there are. -/
def layers : List String := ["unix", "unix-none", "unix-dotfile", "unix-excl", "memdb"]

/-- Accepts the layer. -/
def checkLayer (n : FileName) : Except EngineFault FileName :=
  if n.layer ∈ layers then .ok n
  else .error (.reported (some "1") ("no such vfs: " ++ n.layer))

/-- The path of a URI, and what follows it, without the host. -/
def dropHost : List Char → Except EngineFault (List Char)
  | '/' :: '/' :: rest =>
    let host := rest.takeWhile (· ≠ '/')
    if host.isEmpty ∨ host = "localhost".toList then .ok (rest.drop host.length)
    else .error (.reported (some "1") ("invalid uri authority: " ++ String.ofList host))
  | rest => .ok rest

/-- Reads a URI behind its scheme. -/
def readUri (n : FileName) (cs : List Char) : Except EngineFault FileName := do
  let rest := (← dropHost cs).takeWhile (· ≠ '#')
  let parameters := parameters ((rest.dropWhile (· ≠ '?')).drop 1)
  let n ← parameters.foldlM (fun n (name, value) => n.setParameter name value)
    { n with isUri := true, path := decodePart (rest.takeWhile (· ≠ '?')) }
  return { n with immutable := isSet parameters "immutable", unlocked := isSet parameters "nolock" }

/-- The name under which a database is opened.  An address with an option that only a URI can say
    is made into one, which ends its path at a zero byte; otherwise no zero byte is allowed. -/
def ofAddress (a : FileAddress) : Except EngineFault FileName :=
  let n : FileName :=
    { path := a.path, access := if a.readOnly then .readOnly else .create,
      inMemory := a.inMemory, shared := a.shared }
  if a.immutable ∨ a.layer.isSome then
    let layer := (a.layer.map fun l => cutAtZero (l.replace " " "+")).getD n.layer
    { n with
      path := cutAtZero a.path, isUri := true, immutable := a.immutable, layer := layer }.checkLayer
  else if a.path.toList.contains '\x00' then
    .error (.io "filename passed to SQLite must not contain nul bytes")
  else match Text.stripStart? "file:".toList a.path.toList with
    | some rest => (n.readUri rest).bind checkLayer
    | none => .ok n

/-! ## What a name stands for -/

/-- Where a database is kept. -/
inductive Keeping where
  | file
  /-- In memory, under a name that connections share. -/
  | shared
  /-- For one connection. -/
  | connection
  deriving DecidableEq, Repr

/-- Is the database in memory, whatever its layer? -/
def isMemory (n : FileName) : Bool := n.path.isEmpty || n.inMemory || n.path == ":memory:"

/-- Where the database is kept. -/
def keeping (n : FileName) : Keeping :=
  if n.path.isEmpty then .connection
  else if n.isMemory then if n.isUri ∧ n.shared then .shared else .connection
  else if n.layer = "memdb" then
    if (Text.hasStart "/" n.path || Text.hasStart "\\" n.path) && n.path.length > 1 then .shared
    else .connection
  else .file

/-- May the database be changed? -/
def isWritable (n : FileName) : Bool :=
  n.access != .readOnly && (n.isMemory || !n.immutable)

/-- Can changes be logged ahead, in a file of their own?  The connections have to share memory for
    it. -/
def canLogAhead (n : FileName) : Bool :=
  n.keeping == .file && !n.immutable && !n.unlocked &&
    (n.layer == "unix" || n.layer == "unix-excl")

end FileName

end JobQueue
