/-
  Reading a JSON value.

  Lists and objects may stand in each other up to a depth of `maxDepth`.
  `decode` reads a whole text: one value, and blanks around it.
-/
import JobQueue.Json.Number
import JobQueue.Json.Token

namespace JobQueue.Json

/-- How many lists and objects may stand in each other. -/
def maxDepth : Nat := 127

def Numeral.toJson : Numeral → Json
  | whole n => .integer n
  | real x => .real x

/-- Reads one member into the object read so far. -/
def readMember (value : Reader Json) (key : String) (members : List (String × Json)) :
    Reader (List (String × Json)) := fun s =>
  match colon s with
  | .error f => .error f
  | .ok s =>
    match value s with
    | .error f => .error f
    | .ok (v, s) => .ok (insertMember key v members, s)

/-- Reads a value in which lists and objects may stand in each other up to a depth. -/
def readValue (depth : Nat) : Reader Json := fun s =>
  match skipSpace s with
  | [] => .error (.on .eofValue [])
  | b :: s =>
    if b = 110 then (readWord nullTail s).map fun s => (.null, s)
    else if b = 116 then (readWord trueTail s).map fun s => (.bool true, s)
    else if b = 102 then (readWord falseTail s).map fun s => (.bool false, s)
    else if b = 34 then (Text.readBody s).map fun (t, s) => (.string t, s)
    else if b = 91 then
      match depth with
      | 0 => .error (.on .tooDeep (b :: s))
      | depth + 1 => (readList (readValue depth) s).map fun (vs, s) => (.array vs, s)
    else if b = 123 then
      match depth with
      | 0 => .error (.on .tooDeep (b :: s))
      | depth + 1 =>
        (readMembers (readMember (readValue depth)) (s.length + 1) true [] s).map
          fun (ms, s) => (.object ms, s)
    else if b = 45 ∨ (Numeral.digit? b).isSome then
      (Numeral.read (b :: s)).map fun (n, s) => (n.toJson, s)
    else .error (.on .expectedValue (b :: s))

/-- Reads a whole text with a reader. -/
def readAll {α : Type} (value : Reader α) (s : Bytes) : Except Fault α :=
  match value s with
  | .error f => .error f
  | .ok (v, s) => (expectEnd s).map fun _ => v

/-- The value that a text stands for. -/
def decode (s : Bytes) : Except Fault Json := readAll (readValue maxDepth) s

end JobQueue.Json
