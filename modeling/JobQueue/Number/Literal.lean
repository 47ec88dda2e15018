/-
  Whole numbers written in decimal.

  A literal is an optional sign and one or more ASCII digits.  `readInt lo hi`
  reads one from left to right and stops at the first fault: no digit where
  one has to be, or a value that has left the range `lo … hi`.  A minus sign is
  part of the grammar only where negative numbers are in the range.
-/

namespace JobQueue.Literal

/-- Why a text is not a number of the wanted range. -/
inductive Fault where
  | empty
  | invalidDigit
  | tooLarge
  | tooSmall
  deriving DecidableEq, Repr

/-- The fault in words. -/
def Fault.message : Fault → String
  | .empty => "cannot parse integer from empty string"
  | .invalidDigit => "invalid digit found in string"
  | .tooLarge => "number too large to fit in target type"
  | .tooSmall => "number too small to fit in target type"

/-- The largest number of 64 bits. -/
def max64 : Nat := 0xffffffffffffffff

/-- The largest number of 16 bits. -/
def max16 : Nat := 0xffff

/-- The value of an ASCII digit. -/
def digit? (c : Char) : Option Nat :=
  if '0' ≤ c ∧ c ≤ '9' then some (c.toNat - '0'.toNat) else none

/-- Reads digits behind the value `acc`; the value may not exceed `bound`. -/
def readDigits (bound : Nat) (excess : Fault) : Nat → List Char → Except Fault Nat
  | acc, [] => .ok acc
  | acc, c :: cs =>
    match digit? c with
    | none => .error .invalidDigit
    | some d =>
      if acc * 10 + d ≤ bound then readDigits bound excess (acc * 10 + d) cs else .error excess

/-- Reads at least one digit. -/
def readMagnitude (bound : Nat) (excess : Fault) : List Char → Except Fault Nat
  | [] => .error .invalidDigit
  | cs => readDigits bound excess 0 cs

/-- Reads a number from `0` to `max`. -/
def readNat (max : Nat) : List Char → Except Fault Nat
  | [] => .error .empty
  | '+' :: cs => readMagnitude max .tooLarge cs
  | cs => readMagnitude max .tooLarge cs

/-- Reads a number from `-min` to `max`. -/
def readInt (min max : Nat) : List Char → Except Fault Int
  | [] => .error .empty
  | '+' :: cs => (readMagnitude max .tooLarge cs).map Int.ofNat
  | '-' :: cs => (readMagnitude min .tooSmall cs).map fun n => -(n : Int)
  | cs => (readMagnitude max .tooLarge cs).map Int.ofNat

end JobQueue.Literal
