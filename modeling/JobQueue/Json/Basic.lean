/-
  JSON values, and the faults of a text that is not JSON.

  Numbers are whole numbers as long as they fit into 64 bits (signed or
  unsigned) and doubles otherwise.  The members of an object are kept in the
  order of their keys, each key once.

  A reader takes bytes from the front of a text.  When it fails it says why,
  and how many bytes are left behind the place where it failed; `Fault.place`
  turns this into a line and a column.
-/

namespace JobQueue

/-- A JSON value. -/
inductive Json where
  | null
  | bool (b : Bool)
  | integer (n : Int)
  | real (x : Float)
  | string (s : String)
  | array (items : List Json)
  | object (members : List (String × Json))
  deriving Inhabited, Repr

/-- The bytes of a text. -/
abbrev Bytes := List UInt8

namespace Json

/-- Adds a member to an object; of two members with one key the later one stays. -/
def insertMember (key : String) (value : Json) : List (String × Json) → List (String × Json)
  | [] => [(key, value)]
  | (k, v) :: ms =>
    if key < k then (key, value) :: (k, v) :: ms
    else if key = k then (key, value) :: ms
    else (k, v) :: insertMember key value ms

/-! ## Faults -/

/-- How badly a text fails. -/
inductive Category where
  /-- It ends too early. -/
  | eof
  /-- It is not JSON. -/
  | syntaxFault
  /-- It is JSON, but of another shape than was asked for. -/
  | data
  deriving DecidableEq, Repr

/-- Why a text cannot be read. -/
inductive Cause where
  | eofList
  | eofObject
  | eofString
  | eofValue
  | expectedColon
  | expectedListEnd
  | expectedObjectEnd
  | expectedWord
  | expectedValue
  | invalidEscape
  | invalidNumber
  | numberOutOfRange
  | invalidCodePoint
  | controlCharacter
  | keyNotString
  | loneSurrogate
  | trailingComma
  | trailingCharacters
  | unpairedSurrogate
  | tooDeep
  /-- A value of another type or range, a field that is missing or there twice. -/
  | mismatch
  deriving DecidableEq, Repr

namespace Cause

def category : Cause → Category
  | eofList | eofObject | eofString | eofValue => .eof
  | mismatch => .data
  | _ => .syntaxFault

/-- The cause in words. -/
def message : Cause → String
  | eofList => "EOF while parsing a list"
  | eofObject => "EOF while parsing an object"
  | eofString => "EOF while parsing a string"
  | eofValue => "EOF while parsing a value"
  | expectedColon => "expected `:`"
  | expectedListEnd => "expected `,` or `]`"
  | expectedObjectEnd => "expected `,` or `\x7d`"
  | expectedWord => "expected ident"
  | expectedValue => "expected value"
  | invalidEscape => "invalid escape"
  | invalidNumber => "invalid number"
  | numberOutOfRange => "number out of range"
  | invalidCodePoint => "invalid unicode code point"
  | controlCharacter => "control character (\\u0000-\\u001F) found while parsing a string"
  | keyNotString => "key must be a string"
  | loneSurrogate => "lone leading surrogate in hex escape"
  | trailingComma => "trailing comma"
  | trailingCharacters => "trailing characters"
  | unpairedSurrogate => "unexpected end of hex escape"
  | tooDeep => "recursion limit exceeded"
  | mismatch => "data did not match"

end Cause

/-- A cause, and how many bytes are behind the place it was found at. -/
structure Fault where
  cause : Cause
  unread : Nat
  deriving DecidableEq, Repr

/-- A fault behind which `rest` is left. -/
def Fault.before (cause : Cause) (rest : Bytes) : Fault := ⟨cause, rest.length⟩

/-- A fault of the first byte of `rest`, or of the end of the text. -/
def Fault.on (cause : Cause) (rest : Bytes) : Fault := ⟨cause, rest.length - 1⟩

/-- The line and the column of a fault in the text that was read, counted in bytes. -/
def Fault.place (f : Fault) (text : Bytes) : Nat × Nat :=
  let behind := text.take (text.length - f.unread)
  (1 + behind.count 10, (behind.reverse.takeWhile (· != 10)).length)

/-- The fault in words. -/
def Fault.message (f : Fault) (text : Bytes) : String :=
  let (line, column) := f.place text
  f.cause.message ++ " at line " ++ toString line ++ " column " ++ toString column

/-- Reads an `α` from the front of a text. -/
abbrev Reader (α : Type) := Bytes → Except Fault (α × Bytes)

end Json

end JobQueue
