/-
  URLs of database servers and their parts.

  Behind the scheme and two slashes stand, each of them optional, a user and a
  password, a host, a port, a path and fields.  A name or an IPv6 address in
  brackets can be a host.  Tabs and line ends in a URL, and blanks around it, do
  not count.
-/
import JobQueue.Number.Literal
import JobQueue.Store.Engine
import JobQueue.Text.Percent

namespace JobQueue

/-- The parts of the URL of a database server; percent signs still stand in all but the fields. -/
structure ServerUrl where
  /-- Empty if there is none. -/
  user : List Char
  password : Option (List Char)
  /-- Empty if there is none. -/
  host : List Char
  port : Option Nat
  /-- The path without the slashes it begins with. -/
  path : List Char
  fields : List (String × String)

namespace ServerUrl

/-! ## Hosts and ports -/

/-- A group of an IPv6 address: one to four hexadecimal digits. -/
def isGroup (g : List Char) : Bool :=
  0 < g.length && g.length ≤ 4 &&
    g.all fun c => (Percent.hexDigit? c.toNat.toUInt8).isSome && c.toNat < 128

/-- A number of an IPv4 address: up to 255 and without leading zeros. -/
def isOctet (g : List Char) : Bool :=
  match Literal.readMagnitude 255 .tooLarge g with
  | .ok _ => g.length = 1 || g.head? != some '0'
  | .error _ => false

def isIPv4 (g : List Char) : Bool :=
  let octets := Text.splitChars '.' g
  octets.length = 4 && octets.all isOctet

/-- How many groups stand for the pieces, if they are groups; the last piece may be an IPv4
    address, which stands for two. -/
def countGroups : List (List Char) → Option Nat
  | [] => some 0
  | [g] => if isGroup g then some 1 else if isIPv4 g then some 2 else none
  | g :: gs => if isGroup g then (countGroups gs).map (· + 1) else none

/-- The pieces between colons; an empty text has none. -/
def pieces (cs : List Char) : List (List Char) := if cs.isEmpty then [] else Text.splitChars ':' cs

/-- What stands before and behind the first two colons in a row. -/
def splitGap? : List Char → Option (List Char × List Char)
  | ':' :: ':' :: cs => some ([], cs)
  | c :: cs => (splitGap? cs).map fun (a, b) => (c :: a, b)
  | [] => none

/-- Eight groups, or fewer with a gap in one place. -/
def isIPv6 (cs : List Char) : Bool :=
  match splitGap? cs with
  | none => countGroups (pieces cs) == some 8
  | some (a, b) =>
    (pieces a).all isGroup &&
      (countGroups (pieces b)).any fun n => (pieces a).length + n ≤ 7

/-- The characters that no host has. -/
def isForbidden (c : Char) : Bool :=
  c ∈ ['\x00', '\t', '\n', '\r', ' ', '#', '/', ':', '<', '>', '?', '@', '[', '\\', ']', '^', '|']

/-- Accepts a host. -/
def checkHost (host : List Char) : Except EngineFault Unit :=
  match host with
  | '[' :: rest =>
    if rest.getLast? = some ']' ∧ isIPv6 rest.dropLast then .ok ()
    else .error (.configuration "invalid IPv6 address")
  | _ =>
    if host.any isForbidden then .error (.configuration "invalid domain character") else .ok ()

def emptyHost : EngineFault := .configuration "empty host"

/-- The host, and what follows it: a colon ends it, outside brackets. -/
def splitHost (inside : Bool) : List Char → List Char × List Char
  | [] => ([], [])
  | c :: cs =>
    if c = ':' ∧ !inside then ([], c :: cs)
    else
      let (host, rest) :=
        splitHost (if c = '[' then true else if c = ']' then false else inside) cs
      (c :: host, rest)

/-- Reads what follows a host: nothing, or a colon and perhaps a port. -/
def readPort : List Char → Except EngineFault (Option Nat)
  | [] | [':'] => .ok none
  | _ :: digits =>
    match Literal.readMagnitude Literal.max16 .tooLarge digits with
    | .ok n => .ok (some n)
    | .error _ => .error (.configuration "invalid port number")

/-! ## Paths -/

/-- A name that stands for the directory itself. -/
def isDot (name : List Char) : Bool :=
  String.ofList (name.map Char.toLower) ∈ [".", "%2e"]

/-- A name that stands for the directory above. -/
def isDoubleDot (name : List Char) : Bool :=
  String.ofList (name.map Char.toLower) ∈ ["..", ".%2e", "%2e.", "%2e%2e"]

/-- Follows the names of a path behind the names `done`, which come in reverse order. -/
def follow (done : List (List Char)) : List (List Char) → List (List Char)
  | [] => done.reverse
  | name :: names =>
    let closing := if names.isEmpty then [[]] else []
    if isDoubleDot name then follow (closing ++ done.drop 1) names
    else if isDot name then follow (closing ++ done) names
    else follow (name :: done) names

/-- A path without its dots and without the slashes it begins with. -/
def plainPath (path : List Char) : List Char :=
  let names := Text.splitChars '/' (if path.head? = some '/' then path.drop 1 else path)
  (['/'].intercalate (follow [] names)).dropWhile (· = '/')

/-! ## URLs -/

/-- Does a character end the part of a URL that names the server? -/
def endsAuthority (c : Char) : Bool := c == '/' || c == '?' || c == '#'

/-- A URL without blanks and controls at its ends, and without tabs and line ends. -/
def clean (url : List Char) : List Char :=
  let isEdge (c : Char) : Bool := c.toNat ≤ 0x20
  (((url.dropWhile isEdge).reverse.dropWhile isEdge).reverse).filter fun c =>
    c != '\t' && c != '\n' && c != '\r'

/-- What stands in front of the last `@` and behind it, if there is one. -/
def splitUser? (authority : List Char) : Option (List Char × List Char) :=
  if authority.contains '@' then
    let r := authority.reverse
    some (((r.dropWhile (· ≠ '@')).drop 1).reverse, (r.takeWhile (· ≠ '@')).reverse)
  else none

/-- The parts of a URL. -/
def ofText (url : String) : Except EngineFault ServerUrl := do
  let rest := (((clean url.toList).dropWhile (· ≠ ':')).drop 3).takeWhile (· ≠ '#')
  let authority := rest.takeWhile fun c => !endsAuthority c
  let behind := rest.drop authority.length
  let (login, server) := (splitUser? authority).getD ([], authority)
  if login.isEmpty ∧ authority.head? = some '@' ∧ server.isEmpty ∧ !behind.isEmpty then
    throw emptyHost
  let user := login.takeWhile (· ≠ ':')
  let password := (login.dropWhile (· ≠ ':')).drop 1
  let (host, tail) := splitHost false server
  checkHost host
  if host.isEmpty ∧ !tail.isEmpty then throw emptyHost
  let digits := tail.takeWhile (· ≠ '\\')
  let port ← readPort digits
  if host.isEmpty ∧ !(user.isEmpty ∧ password.isEmpty) then throw emptyHost
  let place := tail.drop digits.length ++ behind
  return {
    user := user
    password := if password.isEmpty then none else some password
    host := host
    port := port
    path := plainPath (place.takeWhile (· ≠ '?'))
    fields := Percent.fields (String.ofList ((place.dropWhile (· ≠ '?')).drop 1)) }

end ServerUrl

end JobQueue
