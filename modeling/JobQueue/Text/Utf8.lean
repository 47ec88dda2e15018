/-
  Bytes that may or may not be a text.

  The first byte of a character says how many bytes the character has; the
  others continue it, and some second bytes are ruled out so that no character
  has two forms and no surrogate has any.  `fault?` finds the first place where
  this goes wrong; `lossy` puts the replacement character there and goes on
  behind the bytes that could have begun a character.
-/

namespace JobQueue.Utf8

/-- How many bytes a character with this first byte has; none begins with such a byte if zero. -/
def length (first : UInt8) : Nat :=
  if first < 0x80 then 1
  else if first < 0xC2 then 0
  else if first < 0xE0 then 2
  else if first < 0xF0 then 3
  else if first < 0xF5 then 4
  else 0

/-- May the byte stand second in a character? -/
def isSecond (first b : UInt8) : Bool :=
  (if first = 0xE0 then 0xA0 else if first = 0xF0 then 0x90 else 0x80) ≤ b &&
    b ≤ (if first = 0xED then 0x9F else if first = 0xF4 then 0x8F else 0xBF)

/-- What stands at the front of some bytes. -/
inductive Front where
  /-- A character of so many bytes. -/
  | character (bytes : Nat)
  /-- So many bytes that begin no character. -/
  | broken (bytes : Nat)
  /-- The beginning of a character, and then the end. -/
  | cut
  deriving DecidableEq, Repr

/-- Reads the third and the fourth byte of a character, of which `n` have been read. -/
def continued : (missing n : Nat) → List UInt8 → Front
  | 0, n, _ => .character n
  | _ + 1, _, [] => .cut
  | missing + 1, n, b :: bs => if isSecond 0 b then continued missing (n + 1) bs else .broken n

/-- What stands at the front of the bytes `first :: bs`. -/
def front (first : UInt8) (bs : List UInt8) : Front :=
  match length first with
  | 0 => .broken 1
  | 1 => .character 1
  | n =>
    match bs with
    | [] => .cut
    | b :: bs => if isSecond first b then continued (n - 2) 2 bs else .broken 1

/-- Why bytes are no text. -/
structure Fault where
  /-- How many bytes are in order. -/
  inOrder : Nat
  /-- How many bytes behind them begin no character; nothing if the bytes end in the middle of a
      character. -/
  broken : Option Nat
  deriving DecidableEq, Repr

/-- The fault in words. -/
def Fault.message (f : Fault) : String :=
  match f.broken with
  | some n =>
    "invalid utf-8 sequence of " ++ toString n ++ " bytes from index " ++ toString f.inOrder
  | none => "incomplete utf-8 byte sequence from index " ++ toString f.inOrder

/-- The first fault of some bytes, of which `n` are in order and have been dropped. -/
def faultBehind? (n : Nat) : List UInt8 → Option Fault
  | [] => none
  | b :: bs =>
    match front b bs with
    | .character k => faultBehind? (n + k) (bs.drop (k - 1))
    | .broken k => some ⟨n, some k⟩
    | .cut => some ⟨n, none⟩
  termination_by bs => bs.length
  decreasing_by simp only [List.length_drop, List.length_cons]; omega

/-- The first fault of some bytes. -/
def fault? (bs : List UInt8) : Option Fault := faultBehind? 0 bs

/-- The bytes of the replacement character. -/
def replacement : List UInt8 := [0xEF, 0xBF, 0xBD]

/-- The bytes with a replacement character for every fault. -/
def repaired : List UInt8 → List UInt8
  | [] => []
  | b :: bs =>
    match front b bs with
    | .character k => b :: bs.take (k - 1) ++ repaired (bs.drop (k - 1))
    | .broken k => replacement ++ repaired (bs.drop (k - 1))
    | .cut => replacement
  termination_by bs => bs.length
  decreasing_by all_goals simp only [List.length_drop, List.length_cons]; omega

/-- The text of some bytes, with a replacement character for every fault. -/
def lossy (bs : List UInt8) : String :=
  (String.fromUTF8? (repaired bs).toByteArray).getD ""

/-- The text of some bytes. -/
def decode (bs : List UInt8) : Except Fault String :=
  match String.fromUTF8? bs.toByteArray with
  | some s => .ok s
  | none => .error ((fault? bs).getD ⟨0, none⟩)

/-- The bytes of a text. -/
def encode (s : String) : List UInt8 := s.toUTF8.data.toList

end JobQueue.Utf8
