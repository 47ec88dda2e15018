/-
  Machine integers with honest edges.

  Times, limits and counters are 64-bit (attempts and priorities 32-bit)
  signed integers.  A sum or difference is computed in the integers and then
  brought back in one of two ways:

  * `fit?` gives nothing when the exact value is not representable, so that an
    overflow is an outcome and never a wrong number;
  * `clamp` gives the nearest representable value.
-/

namespace JobQueue

/-! ## 64 bits -/

/-- `n` as a 64-bit integer, if it is one. -/
def fit? (n : Int) : Option Int64 :=
  if -0x8000000000000000 ≤ n ∧ n < 0x8000000000000000 then some (Int64.ofInt n) else none

/-- The 64-bit integer nearest to `n`.  A table in memory holds fewer than `2 ^ 63` entries, so the
    count of some of them comes out as it is, as from any other conversion to 64 bits. -/
def clamp (n : Int) : Int64 :=
  if n < -0x8000000000000000 then Int64.minValue
  else if n < 0x8000000000000000 then Int64.ofInt n
  else Int64.maxValue

theorem toInt_of_fit? {n : Int} {w : Int64} (h : fit? n = some w) : w.toInt = n := by
  unfold fit? at h
  split at h
  · rename_i hn
    rw [← Option.some.inj h, Int64.toInt_ofInt_of_le hn.1 hn.2]
  · cases h

theorem fit?_eq_none_iff {n : Int} :
    fit? n = none ↔ n < -0x8000000000000000 ∨ 0x8000000000000000 ≤ n := by
  unfold fit?; split <;> simp <;> omega

theorem fit?_toInt (w : Int64) : fit? w.toInt = some w := by
  have h : -0x8000000000000000 ≤ w.toInt ∧ w.toInt < 0x8000000000000000 :=
    ⟨Int64.le_toInt w, Int64.toInt_lt w⟩
  rw [fit?, if_pos h, Int64.ofInt_toInt]

/-- Clamping is the middle of the three values `-2⁶³`, `n` and `2⁶³ - 1`. -/
theorem toInt_clamp (n : Int) :
    (clamp n).toInt = max (-0x8000000000000000) (min n 0x7fffffffffffffff) := by
  unfold clamp
  split
  · have : Int64.minValue.toInt = -0x8000000000000000 := by decide
    omega
  · split
    · rw [Int64.toInt_ofInt_of_le] <;> omega
    · have : Int64.maxValue.toInt = 0x7fffffffffffffff := by decide
      omega

theorem clamp_toInt (w : Int64) : clamp w.toInt = w := by
  have h₁ := Int64.le_toInt w
  have h₂ := Int64.toInt_lt w
  apply Int64.toInt_inj.1
  rw [toInt_clamp]; omega

/-- The exact difference, if it is representable. -/
def sub? (a b : Int64) : Option Int64 := fit? (a.toInt - b.toInt)

/-- The sum, held at the ends of the range. -/
def addClamped (a b : Int64) : Int64 := clamp (a.toInt + b.toInt)

/-- The difference, held at the ends of the range. -/
def subClamped (a b : Int64) : Int64 := clamp (a.toInt - b.toInt)

/-- The successor, if there is one. -/
def succ? (a : Int64) : Option Int64 := fit? (a.toInt + 1)

/-! ## 32 bits -/

/-- `n` as a 32-bit integer, if it is one. -/
def fit32? (n : Int) : Option Int32 :=
  if -0x80000000 ≤ n ∧ n < 0x80000000 then some (Int32.ofInt n) else none

theorem toInt_of_fit32? {n : Int} {w : Int32} (h : fit32? n = some w) : w.toInt = n := by
  unfold fit32? at h
  split at h
  · rename_i hn
    rw [← Option.some.inj h, Int32.toInt_ofInt_of_le hn.1 hn.2]
  · cases h

theorem fit32?_eq_none_iff {n : Int} : fit32? n = none ↔ n < -0x80000000 ∨ 0x80000000 ≤ n := by
  unfold fit32?; split <;> simp <;> omega

theorem fit32?_toInt (w : Int32) : fit32? w.toInt = some w := by
  have h : -0x80000000 ≤ w.toInt ∧ w.toInt < 0x80000000 := ⟨Int32.le_toInt w, Int32.toInt_lt w⟩
  rw [fit32?, if_pos h, Int32.ofInt_toInt]

/-- The next attempt number, if it is representable. -/
def succ32? (a : Int32) : Option Int32 := fit32? (a.toInt + 1)

end JobQueue
