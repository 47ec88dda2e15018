/-
  Writing a JSON value, without any blanks.

  In strings the quote, the backslash and the controls are escaped, and
  nothing else.  Doubles are written in their shortest form.
-/
import JobQueue.Json.Basic
import JobQueue.Number.Double

namespace JobQueue.Json

/-- The bytes of a text. -/
def textBytes (s : String) : Bytes := s.toUTF8.data.toList

/-- A digit of hexadecimal, as a byte. -/
def hexByte (n : Nat) : UInt8 := if n < 10 then (48 + n).toUInt8 else (87 + n).toUInt8

/-- A byte of a string as it is written. -/
def escapeByte (b : UInt8) : Bytes :=
  if b = 34 then [92, 34]
  else if b = 92 then [92, 92]
  else if b = 8 then [92, 98]
  else if b = 9 then [92, 116]
  else if b = 10 then [92, 110]
  else if b = 12 then [92, 102]
  else if b = 13 then [92, 114]
  else if b < 32 then [92, 117, 48, 48, hexByte (b.toNat / 16), hexByte (b.toNat % 16)]
  else [b]

/-- A string between its quotes. -/
def writeText (s : String) : Bytes := 34 :: ((textBytes s).flatMap escapeByte ++ [34])

/-- A whole number. -/
def writeInteger (n : Int) : Bytes := textBytes (toString n)

mutual

/-- A value. -/
def write : Json → Bytes
  | null => textBytes "null"
  | bool true => textBytes "true"
  | bool false => textBytes "false"
  | integer n => writeInteger n
  | real x => textBytes (Double.text x)
  | string s => writeText s
  | array [] => [91, 93]
  | array (v :: vs) => 91 :: (write v ++ writeItems vs)
  | object [] => [123, 125]
  | object ((k, v) :: ms) => 123 :: (writeText k ++ 58 :: write v ++ writeMembers ms)

/-- The items behind the first one, and the closing bracket. -/
def writeItems : List Json → Bytes
  | [] => [93]
  | v :: vs => 44 :: (write v ++ writeItems vs)

/-- The members behind the first one, and the closing brace. -/
def writeMembers : List (String × Json) → Bytes
  | [] => [125]
  | (k, v) :: ms => 44 :: (writeText k ++ 58 :: write v ++ writeMembers ms)

end

end JobQueue.Json
