/-
  Doubles as decimal texts.

  A finite double is a whole number times a power of two.  `shortest` finds
  the decimal with the fewest digits among those that no other double is
  nearer to, and of these the one nearest to the double; `fixed` rounds the
  exact value to a number of places, a half going to the even neighbour.
-/

namespace JobQueue.Double

/-- The value `mantissa · 2 ^ exponent`, with a sign. -/
structure Binary where
  negative : Bool
  mantissa : Nat
  exponent : Int
  deriving DecidableEq, Repr

/-- The parts of a finite double. -/
def Binary.ofFloat (x : Float) : Binary :=
  let bits : Nat := x.toBits.toNat
  let fraction : Nat := bits % 0x10000000000000
  let biased : Nat := bits / 0x10000000000000 % 0x800
  let negative := decide (0x8000000000000000 ≤ bits)
  if biased = 0 then ⟨negative, fraction, -1074⟩
  else ⟨negative, 0x10000000000000 + fraction, (biased : Int) - 1075⟩

/-- A decimal: `digits · 10 ^ exponent`. -/
structure Decimal where
  digits : Nat
  exponent : Int
  deriving DecidableEq, Repr

/-- The positive rational `num / den` of `n · 2 ^ e`. -/
def binaryRatio (n : Nat) (e : Int) : Nat × Nat :=
  match e with
  | .ofNat k => (n * Nat.pow 2 k, 1)
  | .negSucc k => (n, Nat.pow 2 (k + 1))

/-- The positive rational of `c · 10 ^ e`. -/
def decimalRatio (c : Nat) (e : Int) : Nat × Nat :=
  match e with
  | .ofNat k => (c * Nat.pow 10 k, 1)
  | .negSucc k => (c, Nat.pow 10 (k + 1))

/-- The difference of two rationals, as far as its sign and size are needed: the two products
    of the crosswise multiplication. -/
def cross (a b : Nat × Nat) : Nat × Nat := (a.1 * b.2, b.1 * a.2)

def ratioLt (a b : Nat × Nat) : Bool := (cross a b).1 < (cross a b).2
def ratioLe (a b : Nat × Nat) : Bool := (cross a b).1 ≤ (cross a b).2

/-- The number of places by which a rational below one has to be moved to reach one. -/
def leadingPlaces (num den : Nat) : Nat → Nat
  | 0 => 0
  | bound + 1 => if den ≤ num then 0 else leadingPlaces (num * 10) den bound + 1

/-- The decimal exponent of the first digit of a positive rational. -/
def decimalExponent (r : Nat × Nat) : Int :=
  if r.2 ≤ r.1 then ((Nat.toDigits 10 (r.1 / r.2)).length : Int) - 1
  else -(leadingPlaces r.1 r.2 400 : Int)

/-- The rationals that are rounded to a double: bounds, and whether the bounds belong. -/
structure Interval where
  low : Nat × Nat
  high : Nat × Nat
  closed : Bool

def Interval.contains (i : Interval) (r : Nat × Nat) : Bool :=
  if i.closed then ratioLe i.low r && ratioLe r i.high
  else ratioLt i.low r && ratioLt r i.high

/-- The interval of a positive double.  Below a power of two the doubles lie twice as close. -/
def Binary.interval (b : Binary) : Interval :=
  let m := 4 * b.mantissa
  let below := if b.mantissa = 0x10000000000000 ∧ b.exponent > -1074 then 1 else 2
  { low := binaryRatio (m - below) (b.exponent - 2)
    high := binaryRatio (m + 2) (b.exponent - 2)
    closed := b.mantissa % 2 = 0 }

/-- The quotient of a rational and a power of ten, rounded down, and the numerator and
    denominator of what is left. -/
def quotient (r : Nat × Nat) (e : Int) : Nat × Nat × Nat :=
  match e with
  | .ofNat k => let d := r.2 * Nat.pow 10 k; (r.1 / d, r.1 % d, d)
  | .negSucc k => let n := r.1 * Nat.pow 10 (k + 1); (n / r.2, n % r.2, r.2)

/-- The better of the two neighbours of a value on the grid of the multiples of `10 ^ e`, if one
    of them lies in the interval. -/
def onGrid (value : Nat × Nat) (i : Interval) (e : Int) : Option Nat :=
  let (c, left, den) := quotient value e
  let lowFits := i.contains (decimalRatio c e)
  let highFits := i.contains (decimalRatio (c + 1) e)
  let nearerLow := 2 * left < den || (2 * left == den && c % 2 == 0)
  if lowFits && (nearerLow || !highFits) then some c
  else if highFits then some (c + 1)
  else none

/-- Tries grids of `n`, `n + 1`, … digits. -/
def search (value : Nat × Nat) (i : Interval) (first : Int) : Nat → Nat → Decimal
  | 0, n => ⟨(quotient value (first - n + 1)).1, first - n + 1⟩
  | bound + 1, n =>
    let e := first - n + 1
    match onGrid value i e with
    | some c => ⟨c, e⟩
    | none => search value i first bound (n + 1)

/-- A decimal whose digits do not end in zero. -/
def Decimal.trim (d : Decimal) : Nat → Decimal
  | 0 => d
  | bound + 1 =>
    if d.digits ≠ 0 ∧ d.digits % 10 = 0 then trim ⟨d.digits / 10, d.exponent + 1⟩ bound else d

/-- The shortest decimal for a positive double. -/
def Binary.shortest (b : Binary) : Decimal :=
  let value := binaryRatio b.mantissa b.exponent
  (search value b.interval (decimalExponent value) 17 1).trim 400

/-! ## Texts -/

/-- How a number is written: positionally while the point stands within these bounds, counted
    from the first digit, and with an exponent otherwise. -/
structure Layout where
  /-- The point is at most this far to the right of the first digit. -/
  mostInteger : Int
  /-- The point is at least this far to the right (to the left, when negative). -/
  leastInteger : Int

/-- Up to sixteen digits before the point, up to five zeros at the front. -/
def plain : Layout := ⟨16, -4⟩

def zeros (n : Nat) : String := String.ofList (List.replicate n '0')

/-- A positive decimal, written in a layout. -/
def Decimal.text (d : Decimal) (layout : Layout) : String :=
  let ds := Nat.toDigits 10 d.digits
  let point : Int := ds.length + d.exponent
  if 0 ≤ d.exponent ∧ point ≤ layout.mostInteger then
    String.ofList ds ++ zeros d.exponent.toNat ++ ".0"
  else if 0 < point ∧ point ≤ layout.mostInteger then
    String.ofList (ds.take point.toNat) ++ "." ++ String.ofList (ds.drop point.toNat)
  else if layout.leastInteger ≤ point ∧ point ≤ 0 then
    "0." ++ zeros (-point).toNat ++ String.ofList ds
  else
    let rest := ds.drop 1
    String.ofList (ds.take 1) ++ (if rest.isEmpty then "" else "." ++ String.ofList rest) ++
      "e" ++ (if 1 ≤ point then "+" else "") ++ toString (point - 1)

/-- A finite double in its shortest form. -/
def text (x : Float) : String :=
  let b := Binary.ofFloat x
  let sign := if b.negative then "-" else ""
  if b.mantissa = 0 then sign ++ "0.0" else sign ++ b.shortest.text plain

/-- A quotient rounded to the nearest whole number, a half to the even one. -/
def roundHalfEven (num den : Nat) : Nat :=
  let q := num / den
  let r := num % den
  if 2 * r < den then q
  else if den < 2 * r then q + 1
  else if q % 2 = 0 then q else q + 1

/-- A finite double rounded to `places` places. -/
def fixed (places : Nat) (x : Float) : String :=
  let b := Binary.ofFloat x
  let (num, den) := binaryRatio b.mantissa b.exponent
  let scale := Nat.pow 10 places
  let n := roundHalfEven (num * scale) den
  let ds := toString (n % scale)
  (if b.negative then "-" else "") ++ toString (n / scale) ++ "." ++
    zeros (places - ds.length) ++ ds

end JobQueue.Double
