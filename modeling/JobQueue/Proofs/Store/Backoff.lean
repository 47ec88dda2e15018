/-
  The delays of retry policies.

  A policy is made from a base delay, and a cap if one is wanted.  What it
  computes with words that stop at their ends is the delay that one has in
  the integers, held once at the end of the clock and once at the cap
  (`toInt_backoff`).  So no delay is zero, and later attempts do not wait
  less (`backoff_mono`).
-/
import JobQueue.Retry
import Mathlib

namespace JobQueue

namespace RetryPolicy

/-- A policy as one can make it. -/
inductive Made : RetryPolicy → Prop where
  | ofBase (base : Millis) : Made (.ofBase base)
  | withCap {p : RetryPolicy} (made : Made p) (cap : Span) : Made (p.withCap cap)

/-- The policy with a base delay, and a cap if there is one. -/
def of (base : Millis) : Option Span → RetryPolicy
  | none => .ofBase base
  | some cap => (ofBase base).withCap cap

theorem of_made (base : Millis) (cap : Option Span) : (of base cap).Made := by
  cases cap with
  | none => exact .ofBase base
  | some cap => exact .withCap (.ofBase base) cap

/-! ## Ends of the range -/

theorem toInt_atLeastOne (d : Millis) : (atLeastOne d).toInt = max d.toInt 1 := by
  have hone : (1 : Int64).toInt = 1 := by decide
  unfold atLeastOne
  split
  · rename_i h
    rw [Int64.lt_iff_toInt_lt] at h
    omega
  · rename_i h
    rw [Int64.lt_iff_toInt_lt] at h
    omega

theorem atLeastOne_pos (d : Millis) : 0 < (atLeastOne d).toInt := by
  rw [toInt_atLeastOne]
  omega

theorem Made.pos {p : RetryPolicy} (made : p.Made) :
    0 < p.base.toInt ∧ ∀ cap, p.cap = some cap → 0 < cap.toInt := by
  induction made with
  | ofBase base => exact ⟨atLeastOne_pos base, by rintro cap ⟨⟩⟩
  | withCap made cap ih =>
    refine ⟨ih.1, ?_⟩
    intro cap' h
    rw [← Option.some.inj h]
    exact atLeastOne_pos _

/-- No delay is zero. -/
theorem Made.backoff_pos {p : RetryPolicy} (made : p.Made) (attempts : Int32) :
    0 < (p.backoff attempts).toInt := by
  obtain ⟨hbase, hcap⟩ := made.pos
  have hdelay : 0 < (clamp (p.base.toInt * Nat.pow 2 (doublings attempts))).toInt := by
    have hpow : (0 : ℤ) < Nat.pow 2 (doublings attempts) := by
      exact_mod_cast Nat.pow_pos (n := doublings attempts) (Nat.two_pos)
    have hmul := Int.mul_pos hbase hpow
    rw [toInt_clamp]
    omega
  unfold backoff
  dsimp only
  split
  · exact hdelay
  · split
    · exact hdelay
    · exact hcap _ ‹_›

/-! ## Delays in the integers -/

/-- The delay after `attempts` attempts, without a cap. -/
def uncapped (base : Millis) (attempts : Int32) : ℤ :=
  min (max base.toInt 1 * 2 ^ min (max attempts.toInt 0).toNat 30) Int64.maxValue.toInt

/-- The delay after `attempts` attempts. -/
def exactDelay (base : Millis) (cap : Option Span) (attempts : Int32) : ℤ :=
  match cap with
  | none => uncapped base attempts
  | some cap => min (uncapped base attempts) (max 1 (min cap.wholeMillis Int64.maxValue.toInt))

theorem uncapped_mono (base : Millis) {m n : Int32} (h : m ≤ n) :
    uncapped base m ≤ uncapped base n := by
  have hmn : (max m.toInt 0).toNat ≤ (max n.toInt 0).toNat :=
    Int.toNat_le_toNat (max_le_max_right 0 (Int32.le_iff_toInt_le.1 h))
  unfold uncapped
  gcongr
  norm_num

theorem exactDelay_mono (base : Millis) (cap : Option Span) {m n : Int32} (h : m ≤ n) :
    exactDelay base cap m ≤ exactDelay base cap n := by
  cases cap with
  | none => exact uncapped_mono base h
  | some cap => exact min_le_min_right _ (uncapped_mono base h)

theorem toInt_ofBase_backoff (base : Millis) (attempts : Int32) :
    ((ofBase base).backoff attempts).toInt = uncapped base attempts := by
  have hpow : ((2 ^ doublings attempts : ℕ) : ℤ) = 2 ^ min (max attempts.toInt 0).toNat 30 := by
    have hnat : (max attempts.toInt 0).toNat = attempts.toInt.toNat := by omega
    rw [doublings, maxDoublings, Nat.cast_pow, hnat]
    norm_num
  have hpos : 0 < max base.toInt 1 * 2 ^ min (max attempts.toInt 0).toNat 30 := by positivity
  have hmax : Int64.maxValue.toInt = 0x7fffffffffffffff := by decide
  show (clamp ((atLeastOne base).toInt * Nat.pow 2 (doublings attempts))).toInt = _
  rw [toInt_clamp, toInt_atLeastOne, Nat.pow_eq, hpow, uncapped, hmax]
  omega

/-- **The delays are those of the integers.** -/
theorem toInt_backoff (base : Millis) (cap : Option Span) (attempts : Int32) :
    ((of base cap).backoff attempts).toInt = exactDelay base cap attempts := by
  cases cap with
  | none => exact toInt_ofBase_backoff base attempts
  | some cap =>
    have hcap : (atLeastOne cap.toMillis).toInt =
        max 1 (min (cap.wholeMillis : ℤ) Int64.maxValue.toInt) := by
      have hmax : Int64.maxValue.toInt = 0x7fffffffffffffff := by decide
      rw [toInt_atLeastOne, Span.toMillis, toInt_clamp, hmax]
      omega
    have hmin : ((ofBase base).withCap cap).backoff attempts =
        if (ofBase base).backoff attempts ≤ atLeastOne cap.toMillis then
          (ofBase base).backoff attempts
        else atLeastOne cap.toMillis := rfl
    rw [of, hmin, exactDelay, ← hcap, ← toInt_ofBase_backoff base attempts]
    split
    · rename_i h
      exact (min_eq_left (Int64.le_iff_toInt_le.1 h)).symm
    · rename_i h
      exact (min_eq_right (Int64.le_iff_toInt_le.1 (Int64.le_of_lt (Int64.not_le.1 h)))).symm

theorem backoff_mono (base : Millis) (cap : Option Span) {m n : Int32} (h : m ≤ n) :
    (of base cap).backoff m ≤ (of base cap).backoff n := by
  rw [Int64.le_iff_toInt_le, toInt_backoff, toInt_backoff]
  exact exactDelay_mono base cap h

end RetryPolicy

/-- What is due after a delay is not due now, unless the clock is at its end. -/
theorem lt_addClamped {now delay : Millis} (hnow : now < Int64.maxValue)
    (hdelay : 0 < delay.toInt) : now < addClamped now delay := by
  have hm : Int64.maxValue.toInt = 0x7fffffffffffffff := by decide
  have hle := Int64.le_toInt now
  rw [Int64.lt_iff_toInt_lt, hm] at hnow
  rw [Int64.lt_iff_toInt_lt, addClamped, toInt_clamp]
  omega

/-- A delay that is not negative ends at the end of the clock at the latest. -/
theorem toInt_addClamped_of_nonneg (now : Millis) {delay : Millis} (hdelay : 0 ≤ delay.toInt) :
    (addClamped now delay).toInt = min Int64.maxValue.toInt (now.toInt + delay.toInt) := by
  have hm : Int64.maxValue.toInt = 0x7fffffffffffffff := by decide
  have hle := Int64.le_toInt now
  rw [addClamped, toInt_clamp, hm]
  omega

end JobQueue
