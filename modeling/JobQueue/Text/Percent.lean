/-
  Percent signs in addresses.

  In an address a byte can be written as `%` and two hexadecimal digits.  A
  percent sign without them stands for itself.  The fields behind the `?` of an
  address are pairs of a key and a value; in them a plus sign stands for a
  blank.
-/
import JobQueue.Text.Blank
import JobQueue.Text.Utf8

namespace JobQueue.Percent

/-- The value of a hexadecimal digit. -/
def hexDigit? (b : UInt8) : Option UInt8 :=
  if 48 ≤ b ∧ b ≤ 57 then some (b - 48)
  else if 97 ≤ b ∧ b ≤ 102 then some (b - 87)
  else if 65 ≤ b ∧ b ≤ 70 then some (b - 55)
  else none

/-- The bytes that a text stands for. -/
def decodeBytes : List UInt8 → List UInt8
  | [] => []
  | 37 :: h :: l :: s =>
    match hexDigit? h, hexDigit? l with
    | some h, some l => (h * 16 + l) :: decodeBytes s
    | _, _ => 37 :: decodeBytes (h :: l :: s)
  | b :: s => b :: decodeBytes s

/-- The text that a text stands for. -/
def decode (s : String) : Except Utf8.Fault String := Utf8.decode (decodeBytes (Utf8.encode s))

/-- The text that a field stands for; what is no text in it is replaced. -/
def decodeField (cs : List Char) : String :=
  let spaced := String.ofList (cs.map fun c => if c = '+' then ' ' else c)
  Utf8.lossy (decodeBytes (Utf8.encode spaced))

/-- A field as its key and its value, which is empty without an equals sign. -/
def splitField (cs : List Char) : List Char × List Char :=
  (cs.takeWhile (· ≠ '='), (cs.dropWhile (· ≠ '=')).drop 1)

/-- The fields behind the `?` of an address. -/
def fields (query : String) : List (String × String) :=
  ((Text.split '&' query).filter fun f => !f.isEmpty).map fun f =>
    let (k, v) := splitField f.toList
    (decodeField k, decodeField v)

end JobQueue.Percent
