/-
  Means as doubles.

  The mean of whole numbers is a rational number.  `rounded` adds doubles and
  rounds after every addition; `compensated` adds whole numbers exactly as long
  as they fit into 64 bits, and afterwards doubles together with the part that
  each addition loses; `decimal` divides exactly, rounds to a decimal with at
  least sixteen digits, and takes the double nearest to that.
-/
import JobQueue.Number.Word

namespace JobQueue.Mean

/-- The mean of a list, from a sum that is rounded after every addition. -/
def rounded (l : List Int) : Float :=
  l.foldl (fun x d => x + Float.ofInt d) 0 / Float.ofNat l.length

/-! ## Compensated sums -/

/-- A sum of doubles, and the sum of what the additions lost. -/
structure Compensated where
  sum : Float
  lost : Float

namespace Compensated

/-- Adds a double: of the two that are added, the smaller one loses. -/
def add (s : Compensated) (x : Float) : Compensated :=
  let t := s.sum + x
  let lost := if x.abs < s.sum.abs then (s.sum - t) + x else (x - t) + s.sum
  ⟨t, s.lost + lost⟩

/-- Whole numbers from here on are not added in one piece. -/
def splitFrom : Nat := 0x10000000000000

/-- A whole number as two doubles, each of which holds its part exactly. -/
def pieces (n : Int) : Float × Float :=
  if splitFrom ≤ n.natAbs then
    let low := Int.tmod n 0x4000
    (Float.ofInt (n - low), Float.ofInt low)
  else (Float.ofInt n, 0)

def ofInt (n : Int) : Compensated := ⟨(pieces n).1, (pieces n).2⟩

/-- Adds a whole number. -/
def addInt (s : Compensated) (n : Int) : Compensated :=
  if splitFrom ≤ n.natAbs then (s.add (pieces n).1).add (pieces n).2 else s.add (Float.ofInt n)

def value (s : Compensated) : Float := s.sum + s.lost

end Compensated

/-- A term: a whole number of 64 bits, or a double. -/
inductive Term where
  | whole (n : Int64)
  | real (x : Float)

/-- A sum: exact as long as it is a whole number of 64 bits. -/
inductive Total where
  | exact (n : Int64)
  | inexact (s : Compensated)

namespace Total

def add : Total → Term → Total
  | exact n, .whole m =>
    match fit? (n.toInt + m.toInt) with
    | some k => exact k
    | none => inexact ((Compensated.ofInt n.toInt).addInt m.toInt)
  | exact n, .real x => inexact ((Compensated.ofInt n.toInt).add x)
  | inexact s, .whole m => inexact (s.addInt m.toInt)
  | inexact s, .real x => inexact (s.add x)

def value : Total → Float
  | exact n => Float.ofInt n.toInt
  | inexact s => s.value

end Total

/-- The mean of a list, from a compensated sum. -/
def compensated (l : List Term) : Float :=
  (l.foldl Total.add (.exact 0)).value / Float.ofNat l.length

/-! ## Decimal quotients -/

/-- The double nearest to a positive rational.  The quotient is cut off behind sixty bits or
    more; when something is cut off the last bit is set, so that nothing looks like a tie. -/
def nearest (num den : Nat) : Float :=
  let shift : Int := 62 + (den.log2 : Int) - (num.log2 : Int)
  let (n, d) := match shift with
    | .ofNat k => (num <<< k, den)
    | .negSucc k => (num, den <<< (k + 1))
  let q := n / d
  (if n % d = 0 then q else q ||| 1).toUInt64.toFloat.scaleB (-shift)

/-- The groups of four decimal digits behind the first group, and the value of the first one; at
    most `bound` of them. -/
def groups (n : Nat) : Nat → Nat × Nat
  | 0 => (0, n)
  | bound + 1 =>
    if n < 10000 then (0, n)
    else
      let (count, first) := groups (n / 10000) bound
      (count + 1, first)

/-- The places that a quotient gets: a multiple of four, and enough for sixteen digits. -/
def places (num den : Nat) : Nat :=
  let (n, a) := groups num num.log2
  let (d, b) := groups den den.log2
  let ahead : Int := (n : Int) - d - if a ≤ b then 1 else 0
  (16 - 4 * ahead).toNat

/-- A quotient rounded to the nearest whole number, a half up. -/
def roundHalfUp (num den : Nat) : Nat := (2 * num + den) / (2 * den)

/-- The mean of a list with an exact sum, by way of a decimal. -/
def decimal (l : List Int) : Float :=
  let total := l.foldr (· + ·) 0
  let scale := Nat.pow 10 (places total.natAbs l.length)
  let x := nearest (roundHalfUp (total.natAbs * scale) l.length) scale
  if total = 0 then 0 else if total < 0 then -x else x

end JobQueue.Mean
