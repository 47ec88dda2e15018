/-
  Numbers in JSON texts.

  A number is an optional minus sign, an integer part without leading zeros,
  and optionally a fraction and an exponent.  Without fraction and exponent it
  is a whole number if it fits into 64 bits; minus zero and everything else is
  a double.  A double is computed from the digits that fit into 64 bits, in
  one or two operations, and not always the nearest one.
-/
import JobQueue.Json.Basic

namespace JobQueue.Json

/-- What a number in a text stands for. -/
inductive Numeral where
  | whole (n : Int)
  | real (x : Float)
  deriving Repr, Inhabited

namespace Numeral

/-- The value of an ASCII digit. -/
def digit? (b : UInt8) : Option Nat :=
  if 48 ≤ b ∧ b ≤ 57 then some (b.toNat - 48) else none

/-- The largest unsigned 64-bit integer. -/
def maxWord : Nat := 0xffffffffffffffff

/-- Reads digits behind `value` as long as the value fits into 64 bits.  Gives the value, the
    number of digits read, and the rest. -/
def takeDigits : Nat → Nat → Bytes → Nat × Nat × Bytes
  | value, count, [] => (value, count, [])
  | value, count, b :: s =>
    match digit? b with
    | none => (value, count, b :: s)
    | some d =>
      if value * 10 + d ≤ maxWord then takeDigits (value * 10 + d) (count + 1) s
      else (value, count, b :: s)

/-- Skips digits; gives their number and the rest. -/
def skipDigits : Nat → Bytes → Nat × Bytes
  | count, [] => (count, [])
  | count, b :: s =>
    match digit? b with
    | none => (count, b :: s)
    | some _ => skipDigits (count + 1) s

/-- Does the text go on with a digit? -/
def startsWithDigit : Bytes → Bool
  | [] => false
  | b :: _ => (digit? b).isSome

/-- The largest power of ten that is a double. -/
def maxPower : Nat := 308

/-- The double nearest to a power of ten. -/
def power (e : Nat) : Float := Float.ofScientific 1 false e

/-- The double for `digits · 10 ^ exponent`; nothing if it is too large. -/
def scale? (digits : Nat) (exponent : Int) : Option Float :=
  let x := digits.toUInt64.toFloat
  match exponent with
  | .ofNat e =>
    if e ≤ maxPower then
      let y := x * power e
      if y.isInf then none else some y
    else if digits = 0 then some 0.0
    else none
  | .negSucc e =>
    let k := e + 1
    if k ≤ maxPower then some (x / power k)
    else if k - maxPower ≤ maxPower then some (x / power maxPower / power (k - maxPower))
    else some 0.0

/-- The double with a sign, or the fault of a number that is too large. -/
def ofParts (negative : Bool) (digits : Nat) (exponent : Int) (rest : Bytes) :
    Except Fault (Numeral × Bytes) :=
  match scale? digits exponent with
  | none => .error (.before .numberOutOfRange rest)
  | some x => .ok (.real (if negative then -x else x), rest)

/-- Largest exponent that is added up. -/
def maxExponent : Nat := 0x7fffffff

/-- Reads the digits of an exponent.  When it becomes too large, gives nothing and what is left
    behind the digit that made it so. -/
def takeExponent : Nat → Bytes → Option Nat × Bytes
  | e, [] => (some e, [])
  | e, b :: s =>
    match digit? b with
    | none => (some e, b :: s)
    | some d => if e * 10 + d ≤ maxExponent then takeExponent (e * 10 + d) s else (none, s)

/-- Reads the part behind the letter of an exponent. -/
def readExponent (negative : Bool) (digits : Nat) (start : Int) (s : Bytes) :
    Except Fault (Numeral × Bytes) :=
  let (down, s) := match s with
    | 43 :: s => (false, s)
    | 45 :: s => (true, s)
    | s => (false, s)
  match s with
  | [] => .error (.before .eofValue [])
  | b :: s =>
    match digit? b with
    | none => .error (.before .invalidNumber s)
    | some d =>
      match takeExponent d s with
      | (some e, s) => ofParts negative digits (if down then start - e else start + e) s
      | (none, s) =>
        if digits ≠ 0 ∧ ¬ down then .error (.before .numberOutOfRange s)
        else .ok (.real (if negative then -0.0 else 0.0), (skipDigits 0 s).2)

/-- Reads what follows the digits before an exponent. -/
def readScaled (negative : Bool) (digits : Nat) (exponent : Int) (s : Bytes) :
    Except Fault (Numeral × Bytes) :=
  match s with
  | 101 :: s | 69 :: s => readExponent negative digits exponent s
  | s => ofParts negative digits exponent s

/-- Reads the part behind the point. -/
def readFraction (negative : Bool) (digits : Nat) (exponent : Nat) (s : Bytes) :
    Except Fault (Numeral × Bytes) :=
  let (digits, count, s) := takeDigits digits 0 s
  if startsWithDigit s then
    readScaled negative digits (exponent - count) (skipDigits 0 s).2
  else if count = 0 then
    .error (.on (if s.isEmpty then .eofValue else .invalidNumber) s)
  else readScaled negative digits (exponent - count) s

/-- Reads what follows the integer part, whose digits all fit. -/
def readTail (negative : Bool) (digits : Nat) (s : Bytes) : Except Fault (Numeral × Bytes) :=
  match s with
  | 46 :: s => readFraction negative digits 0 s
  | 101 :: s | 69 :: s => readExponent negative digits 0 s
  | s =>
    if negative then
      if digits = 0 ∨ digits > 0x8000000000000000 then .ok (.real (-digits.toUInt64.toFloat), s)
      else .ok (.whole (-digits), s)
    else .ok (.whole digits, s)

/-- Reads a number whose sign has been read. -/
def readUnsigned (negative : Bool) (s : Bytes) : Except Fault (Numeral × Bytes) :=
  match s with
  | [] => .error (.before .eofValue [])
  | 48 :: s =>
    if startsWithDigit s then .error (.on .invalidNumber s) else readTail negative 0 s
  | b :: s =>
    match digit? b with
    | none => .error (.before .invalidNumber s)
    | some d =>
      let (digits, _, s) := takeDigits d 0 s
      if startsWithDigit s then
        let (count, s) := skipDigits 0 s
        match s with
        | 46 :: s => readFraction negative digits count s
        | s => readScaled negative digits count s
      else readTail negative digits s

/-- Reads a number. -/
def read : Reader Numeral
  | 45 :: s => readUnsigned true s
  | s => readUnsigned false s

end Numeral

end JobQueue.Json
