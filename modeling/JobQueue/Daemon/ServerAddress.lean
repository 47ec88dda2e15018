/-
  The way to a database server.

  A server is reached through a socket in a directory, or at a host.  The URL
  may say which, with its host (one whose text begins with a `/` when the
  percent signs are taken out is a directory) or with its fields; a directory
  counts more than a host, whichever comes first.  What the URL leaves open is
  taken from variables.
-/
import JobQueue.Daemon.ServerUrl
import JobQueue.Daemon.Settings
import JobQueue.Text.Quoted

namespace JobQueue

/-- How a connection is protected. -/
inductive Protection where
  | disable | allow | prefer | require | verifyAuthority | verifyAll
  deriving DecidableEq, Repr

namespace Protection

def all : List Protection := [disable, allow, prefer, require, verifyAuthority, verifyAll]

def name : Protection → String
  | disable => "disable"
  | allow => "allow"
  | prefer => "prefer"
  | require => "require"
  | verifyAuthority => "verify-ca"
  | verifyAll => "verify-full"

/-- The protection with a name, in letters of either case. -/
def ofName? (s : String) : Option Protection := all.find? (·.name == s.toLower)

/-- Must the server encrypt? -/
def isDemanded (p : Protection) : Bool :=
  match p with
  | disable | allow | prefer => false
  | require | verifyAuthority | verifyAll => true

end Protection

/-- The way to a database server. -/
structure ServerAddress where
  /-- The directory of a socket. -/
  socket : Option String := none
  /-- A host, or the directory of a socket if it begins with a `/`. -/
  host : String := "localhost"
  port : Nat := 5432
  protection : Protection := .prefer
  deriving DecidableEq, Repr

namespace ServerAddress

/-- The directory of the socket, if the way leads through one. -/
def directory? (a : ServerAddress) : Option String :=
  match a.socket with
  | some d => some d
  | none => if Text.hasStart "/" a.host then some a.host else none

/-- The name of the socket in its directory. -/
def socketName (a : ServerAddress) : String := ".s.PGSQL." ++ toString a.port

/-- The way that variables describe. -/
def ofVariables (vars : Variables) : ServerAddress :=
  let usual : ServerAddress := {}
  let port? (text : String) : Option Nat := (Literal.readNat Literal.max16 text.toList).toOption
  { host := ((vars "PGHOSTADDR") <|> vars "PGHOST").getD usual.host
    port := ((vars "PGPORT").bind port?).getD usual.port
    protection := ((vars "PGSSLMODE").bind Protection.ofName?).getD usual.protection }

/-- Reads a number up to `max`. -/
def readNumber (max : Nat) (text : String) : Except EngineFault Nat :=
  match Literal.readNat max text.toList with
  | .ok n => .ok n
  | .error why => .error (.configuration why.message)

/-- Takes a field of a URL into account. -/
def setField (a : ServerAddress) (key value : String) : Except EngineFault ServerAddress :=
  if key = "sslmode" ∨ key = "ssl-mode" then
    match Protection.ofName? value with
    | some p => .ok { a with protection := p }
    | none => .error (.configuration ("error with configuration: unknown value " ++
        Text.quote value ++ " for `ssl_mode`"))
  else if key = "host" then
    if Text.hasStart "/" value then .ok { a with socket := some value }
    else .ok { a with host := value }
  else if key = "hostaddr" then
    if ServerUrl.isIPv4 value.toList || ServerUrl.isIPv6 value.toList then
      .ok { a with host := value }
    else .error (.configuration "invalid IP address syntax")
  else if key = "port" then
    (readNumber Literal.max16 value).map fun port => { a with port := port }
  else if key = "statement-cache-capacity" then
    (readNumber Literal.max64 value).map fun _ => a
  else .ok a

/-- The text that a part of a URL stands for. -/
def decode (part : List Char) : Except EngineFault String :=
  match Percent.decode (String.ofList part) with
  | .ok s => .ok s
  | .error why => .error (.configuration why.message)

/-- Takes the host of a URL into account. -/
def setHost (a : ServerAddress) (host : List Char) : Except EngineFault ServerAddress :=
  let text := String.ofList host
  if host.isEmpty then .ok a
  else if (Percent.decodeBytes (Utf8.encode text)).head? = some 47 then
    (decode host).map fun directory => { a with socket := some directory }
  else .ok { a with host := text }

/-- The way that a URL describes, with what it leaves open. -/
def ofUrl (vars : Variables) (url : String) : Except EngineFault ServerAddress := do
  let u ← ServerUrl.ofText url
  let a ← (ofVariables vars).setHost u.host
  let a := { a with port := u.port.getD a.port }
  [u.user, u.password.getD [], u.path].forM fun part => (decode part).map fun _ => ()
  u.fields.foldlM (fun a (k, v) => a.setField k v) a

end ServerAddress

end JobQueue
