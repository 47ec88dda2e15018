/-
  Which texts are read as numbers.

  `IsNatural` and `IsInteger` are the grammar of decimal literals together
  with the value that each of them has.  The readers work from left to right
  and stop at the first fault; they accept exactly the literals whose value is
  in the wanted range, because more digits never make a value smaller.
-/
import JobQueue.Number.Literal

namespace JobQueue

theorem map_eq_ok_iff {ε α β : Type} {f : α → β} {e : Except ε α} {b : β} :
    e.map f = .ok b ↔ ∃ a, e = .ok a ∧ b = f a := by
  cases e <;> simp [Except.map, eq_comm]

theorem bind_eq_ok_iff {ε α β : Type} {f : α → Except ε β} {e : Except ε α} {b : β} :
    e >>= f = .ok b ↔ ∃ a, e = .ok a ∧ f a = .ok b := by
  cases e <;> simp [bind, Except.bind]

theorem map_eq_error_iff {ε α β : Type} {f : α → β} {e : Except ε α} {x : ε} :
    e.map f = .error x ↔ e = .error x := by
  cases e <;> simp [Except.map]

namespace Literal

variable {c : Char} {cs : List Char} {n max min : Nat}

/-! ## The grammar -/

/-- One or more ASCII digits. -/
structure Digits (cs : List Char) : Prop where
  ne_nil : cs ≠ []
  isDigit : ∀ c ∈ cs, c.isDigit

/-- The value of digits. -/
def value (cs : List Char) : Nat := Nat.ofDigitChars 10 cs 0

/-- Digits, with a plus sign or without, and their value. -/
inductive IsNatural : List Char → Nat → Prop
  | bare {cs : List Char} : Digits cs → IsNatural cs (value cs)
  | plus {cs : List Char} : Digits cs → IsNatural ('+' :: cs) (value cs)

/-- Digits, with a sign or without, and the value of all that. -/
inductive IsInteger : List Char → Int → Prop
  | natural {cs : List Char} {n : Nat} : IsNatural cs n → IsInteger cs n
  | minus {cs : List Char} : Digits cs → IsInteger ('-' :: cs) (-(value cs))

theorem Digits.head (h : Digits (c :: cs)) : c.isDigit := h.isDigit c List.mem_cons_self

theorem IsNatural.ne_nil {n : Nat} (h : IsNatural cs n) : cs ≠ [] := by
  cases h with
  | bare h => exact h.ne_nil
  | plus h => simp

theorem isNatural_plus : IsNatural ('+' :: cs) n ↔ Digits cs ∧ value cs = n := by
  constructor
  · intro h
    cases h with
    | bare h => exact absurd h.head (by decide)
    | plus h => exact ⟨h, rfl⟩
  · rintro ⟨h, rfl⟩
    exact .plus h

theorem isNatural_bare (hc : c ≠ '+') :
    IsNatural (c :: cs) n ↔ Digits (c :: cs) ∧ value (c :: cs) = n := by
  constructor
  · intro h
    cases h with
    | bare h => exact ⟨h, rfl⟩
    | plus h => exact absurd rfl hc
  · rintro ⟨h, rfl⟩
    exact .bare h

theorem isInteger_minus {i : Int} :
    IsInteger ('-' :: cs) i ↔ Digits cs ∧ -(value cs : Int) = i := by
  constructor
  · intro h
    cases h with
    | natural h => exact absurd ((isNatural_bare (by decide)).mp h).1.head (by decide)
    | minus h => exact ⟨h, rfl⟩
  · rintro ⟨h, rfl⟩
    exact .minus h

theorem isInteger_natural {i : Int} (hc : c ≠ '-') :
    IsInteger (c :: cs) i ↔ ∃ n : Nat, IsNatural (c :: cs) n ∧ (n : Int) = i := by
  constructor
  · intro h
    cases h with
    | natural h => exact ⟨_, h, rfl⟩
    | minus h => exact absurd rfl hc
  · rintro ⟨n, h, rfl⟩
    exact .natural h

/-! ## Reading digits -/

theorem isDigit_iff : c.isDigit ↔ '0' ≤ c ∧ c ≤ '9' := by
  simp only [Char.isDigit, Bool.and_eq_true, decide_eq_true_eq]
  rfl

theorem digit?_of_isDigit (h : c.isDigit) : digit? c = some (c.toNat - '0'.toNat) :=
  if_pos (isDigit_iff.mp h)

theorem digit?_of_not_isDigit (h : ¬c.isDigit) : digit? c = none :=
  if_neg fun hc => h (isDigit_iff.mpr hc)

theorem le_ofDigitChars (cs : List Char) (acc : Nat) : acc ≤ Nat.ofDigitChars 10 cs acc := by
  induction cs generalizing acc with
  | nil => exact Nat.le_refl _
  | cons c cs ih =>
    rw [Nat.ofDigitChars_cons]
    have := ih (10 * acc + (c.toNat - '0'.toNat))
    omega

/-- Digits are read to their end if the value there is in the range. -/
theorem readDigits_eq_ok_iff {bound acc : Nat} {excess : Fault} (hacc : acc ≤ bound) :
    readDigits bound excess acc cs = .ok n ↔
      (∀ c ∈ cs, c.isDigit) ∧ Nat.ofDigitChars 10 cs acc = n ∧ n ≤ bound := by
  induction cs generalizing acc with
  | nil =>
    simp only [readDigits, Nat.ofDigitChars_nil, Except.ok.injEq]
    constructor
    · rintro rfl
      exact ⟨by simp, rfl, hacc⟩
    · exact fun h => h.2.1
  | cons c cs ih =>
    rw [readDigits, Nat.ofDigitChars_cons, List.forall_mem_cons]
    by_cases hdigit : c.isDigit
    · simp only [digit?_of_isDigit hdigit, Nat.mul_comm acc 10, hdigit, true_and]
      split
      case isTrue hle => exact ih hle
      case isFalse hlt =>
        -- the value has left the range, and the digits that follow do not bring it back
        have := le_ofDigitChars cs (10 * acc + (c.toNat - '0'.toNat))
        constructor
        · intro h
          cases h
        · rintro ⟨-, hn, hle⟩
          omega
    · simp [digit?_of_not_isDigit hdigit, hdigit]

/-- At least one digit, and a value in the range. -/
theorem readMagnitude_eq_ok_iff {bound : Nat} {excess : Fault} :
    readMagnitude bound excess cs = .ok n ↔ Digits cs ∧ value cs = n ∧ n ≤ bound := by
  cases cs with
  | nil =>
    constructor
    · intro h
      cases h
    · rintro ⟨h, -⟩
      exact absurd rfl h.ne_nil
  | cons c cs =>
    rw [readMagnitude, readDigits_eq_ok_iff (Nat.zero_le _)]
    · constructor
      · rintro ⟨h, hn⟩
        exact ⟨⟨by simp, h⟩, hn⟩
      · rintro ⟨h, hn⟩
        exact ⟨h.isDigit, hn⟩
    · simp

/-! ## Reading numbers -/

/-- The literals of the natural numbers up to `max` are read, as the numbers they stand for. -/
theorem readNat_eq_ok_iff : readNat max cs = .ok n ↔ IsNatural cs n ∧ n ≤ max := by
  cases cs with
  | nil =>
    constructor
    · intro h
      cases h
    · rintro ⟨h, -⟩
      exact absurd rfl h.ne_nil
  | cons c cs =>
    by_cases hc : c = '+'
    · subst hc
      rw [readNat, readMagnitude_eq_ok_iff, isNatural_plus, and_assoc]
    · rw [readNat, readMagnitude_eq_ok_iff, isNatural_bare hc, and_assoc]
      · simp
      · simpa using hc

/-- Without a minus sign an integer is read as a natural number is. -/
theorem readInt_natural (hc : c ≠ '-') :
    readInt min max (c :: cs) = (readNat max (c :: cs)).map Int.ofNat := by
  by_cases hplus : c = '+'
  · subst hplus
    rfl
  · rw [readInt, readNat] <;> simp [hc, hplus]

theorem readInt_minus : readInt min max ('-' :: cs) =
    Except.map (fun n : Nat => -(n : Int)) (readMagnitude min .tooSmall cs) := by
  rw [readInt]
  cases readMagnitude min .tooSmall cs <;> rfl

/-- The literals of the integers from `-min` to `max` are read, as the integers they stand for. -/
theorem readInt_eq_ok_iff {i : Int} :
    readInt min max cs = .ok i ↔ IsInteger cs i ∧ -(min : Int) ≤ i ∧ i ≤ max := by
  cases cs with
  | nil =>
    constructor
    · intro h
      cases h
    · rintro ⟨h, -⟩
      cases h with
      | natural h => exact absurd rfl h.ne_nil
  | cons c cs =>
    by_cases hminus : c = '-'
    · subst hminus
      rw [readInt_minus, isInteger_minus, map_eq_ok_iff]
      simp only [readMagnitude_eq_ok_iff]
      constructor
      · rintro ⟨n, ⟨hd, rfl, hle⟩, rfl⟩
        exact ⟨⟨hd, rfl⟩, by omega, by omega⟩
      · rintro ⟨⟨hd, rfl⟩, hlo, -⟩
        exact ⟨_, ⟨hd, rfl, by omega⟩, rfl⟩
    · rw [isInteger_natural hminus, readInt_natural hminus, map_eq_ok_iff]
      simp only [readNat_eq_ok_iff]
      constructor
      · rintro ⟨n, ⟨hn, hle⟩, rfl⟩
        exact ⟨⟨n, hn, rfl⟩, by simp, by simpa using hle⟩
      · rintro ⟨⟨n, hn, rfl⟩, -, hle⟩
        exact ⟨n, ⟨hn, by omega⟩, rfl⟩

end Literal

end JobQueue
