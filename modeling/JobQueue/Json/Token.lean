/-
  What stands between the values of a JSON text: blanks, words, brackets,
  commas, colons and keys.

  A list is read with `nextItem`, which stops before a value or before the
  closing bracket, and `endList`, which takes the bracket; an object with
  `nextKey`, `colon` and `endObject`.  The first item has no comma before it.
-/
import JobQueue.Json.Text

namespace JobQueue.Json

/-- The blanks of JSON: space, tab, line feed and carriage return. -/
def isSpace (b : UInt8) : Bool := b == 32 || b == 9 || b == 10 || b == 13

/-- The text behind its leading blanks. -/
def skipSpace : Bytes → Bytes
  | [] => []
  | b :: s => if isSpace b then skipSpace s else b :: s

/-- Reads the rest of a word whose first letter has been read. -/
def readWord : Bytes → Bytes → Except Fault Bytes
  | [], s => .ok s
  | _ :: _, [] => .error (.before .eofValue [])
  | a :: w, b :: s => if a = b then readWord w s else .error (.before .expectedWord s)

/-- `ull` -/
def nullTail : Bytes := [117, 108, 108]
/-- `rue` -/
def trueTail : Bytes := [114, 117, 101]
/-- `alse` -/
def falseTail : Bytes := [97, 108, 115, 101]

/-! ## Lists -/

/-- The text before the next item, or nothing before the closing bracket. -/
def nextItem (first : Bool) (s : Bytes) : Except Fault (Option Bytes) :=
  match skipSpace s with
  | [] => .error (.on .eofList [])
  | b :: s =>
    if b = 93 then .ok none
    else if first then .ok (some (b :: s))
    else if b = 44 then
      match skipSpace s with
      | [] => .error (.on .eofValue [])
      | c :: s => if c = 93 then .error (.on .trailingComma (c :: s)) else .ok (some (c :: s))
    else .error (.on .expectedListEnd (b :: s))

/-- Takes the bracket that closes a list. -/
def endList (s : Bytes) : Except Fault Bytes :=
  match skipSpace s with
  | [] => .error (.on .eofList [])
  | b :: s =>
    if b = 93 then .ok s
    else if b = 44 then
      match skipSpace s with
      | [] => .error (.on .trailingCharacters [])
      | c :: s =>
        .error (.on (if c = 93 then .trailingComma else .trailingCharacters) (c :: s))
    else .error (.on .trailingCharacters (b :: s))

/-- Reads the items of a list whose opening bracket has been read, and the closing bracket.  The
    items already read come in reverse order; at most `bound` more are read. -/
def readItems {α : Type} (item : Reader α) : Nat → Bool → List α → Reader (List α)
  | 0, _, _, s => .error (.on .eofList s)
  | bound + 1, first, done, s =>
    match nextItem first s with
    | .error f => .error f
    | .ok none => (endList s).map fun s => (done.reverse, s)
    | .ok (some s) =>
      match item s with
      | .error f => .error f
      | .ok (x, s) => readItems item bound false (x :: done) s

/-- Reads a list whose opening bracket has been read. -/
def readList {α : Type} (item : Reader α) : Reader (List α) :=
  fun s => readItems item (s.length + 1) true [] s

/-! ## Objects -/

/-- The next key and the text behind it, or nothing before the closing brace. -/
def nextKey (first : Bool) (s : Bytes) : Except Fault (Option (String × Bytes)) :=
  match skipSpace s with
  | [] => .error (.on .eofObject [])
  | b :: s =>
    if b = 125 then .ok none
    else if first then
      if b = 34 then (Text.readBody s).map some else .error (.on .keyNotString (b :: s))
    else if b = 44 then
      match skipSpace s with
      | [] => .error (.on .eofValue [])
      | c :: s =>
        if c = 34 then (Text.readBody s).map some
        else .error (.on (if c = 125 then .trailingComma else .keyNotString) (c :: s))
    else .error (.on .expectedObjectEnd (b :: s))

/-- Takes the colon behind a key. -/
def colon (s : Bytes) : Except Fault Bytes :=
  match skipSpace s with
  | [] => .error (.on .eofObject [])
  | b :: s => if b = 58 then .ok s else .error (.on .expectedColon (b :: s))

/-- Takes the brace that closes an object. -/
def endObject (s : Bytes) : Except Fault Bytes :=
  match skipSpace s with
  | [] => .error (.on .eofObject [])
  | b :: s =>
    if b = 125 then .ok s
    else .error (.on (if b = 44 then .trailingComma else .trailingCharacters) (b :: s))

/-- Reads the members of an object whose opening brace has been read, and the closing brace.
    Each member is read by `member` with the state that the earlier ones left; at most `bound`
    more are read. -/
def readMembers {σ : Type} (member : String → σ → Reader σ) : Nat → Bool → σ → Reader σ
  | 0, _, _, s => .error (.on .eofObject s)
  | bound + 1, first, state, s =>
    match nextKey first s with
    | .error f => .error f
    | .ok none => (endObject s).map fun s => (state, s)
    | .ok (some (key, s)) =>
      match member key state s with
      | .error f => .error f
      | .ok (state, s) => readMembers member bound false state s

/-- Nothing but blanks may follow. -/
def expectEnd (s : Bytes) : Except Fault Unit :=
  match skipSpace s with
  | [] => .ok ()
  | b :: s => .error (.on .trailingCharacters (b :: s))

end JobQueue.Json
