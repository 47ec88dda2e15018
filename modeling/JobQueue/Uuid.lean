/-
  Random identifiers.

  An identifier has 128 bits.  Six of them say that it is random (version 4,
  variant 1), all others are.  It is written in hexadecimal, in five groups.
-/
import JobQueue.Text.Quoted

namespace JobQueue

/-- An identifier. -/
structure Uuid where
  bits : Nat
  deriving DecidableEq, Repr

namespace Uuid

/-- The identifier with the given random bits. -/
def ofRandom (random : Nat) : Uuid :=
  let high := (random >>> 80) % 0x1000000000000
  let middle := (random >>> 64) % 0x1000
  let low := random % 0x4000000000000000
  ⟨(high <<< 80) + ((0x4000 + middle) <<< 64) + (0x8000000000000000 + low)⟩

/-- The lengths of the groups. -/
def groups : List Nat := [8, 4, 4, 4, 12]

/-- All digits. -/
def digits (u : Uuid) : List Char :=
  let ds := (Text.hex u.bits).toList
  List.replicate (32 - ds.length) '0' ++ ds

/-- Cuts a list into pieces of given lengths. -/
def cut : List Nat → List Char → List (List Char)
  | [], _ => []
  | n :: ns, cs => cs.take n :: cut ns (cs.drop n)

/-- The identifier as it is written. -/
def text (u : Uuid) : String :=
  "-".intercalate ((cut groups u.digits).map String.ofList)

end Uuid

end JobQueue
