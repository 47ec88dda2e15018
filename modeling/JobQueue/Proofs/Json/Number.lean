/-
  Reading back numbers of JSON texts.

  A whole number of 64 bits is read back from its digits (`read_writeInteger`),
  if the text ends behind them or goes on with a blank, a comma or a closing
  bracket.  A number that is skipped may have a fraction and an exponent
  (`IsNumber`).
-/
import JobQueue.Json.Skip
import JobQueue.Proofs.Json.Layout

namespace JobQueue.Json

/-! ## Ends of numbers -/

theorem Stops.cases {s : Bytes} (h : Stops s) :
    s = [] ∨ ∃ b r, s = b :: r ∧ (b = 32 ∨ b = 9 ∨ b = 10 ∨ b = 13 ∨ b = 44 ∨ b = 93 ∨ b = 125) := by
  cases s with
  | nil => exact .inl rfl
  | cons b r =>
    have hb := h b rfl
    simp only [isSpace, Bool.or_eq_true, beq_iff_eq] at hb
    exact .inr ⟨b, r, rfl, by tauto⟩

theorem Stops.noDigit {s : Bytes} (h : Stops s) : Numeral.startsWithDigit s = false := by
  rcases h.cases with rfl | ⟨b, r, rfl, rfl | rfl | rfl | rfl | rfl | rfl | rfl⟩ <;> rfl

namespace Numeral

theorem readTail_of_stops {s : Bytes} (h : Stops s) (negative : Bool) (digits : ℕ) :
    readTail negative digits s =
      if negative then
        if digits = 0 ∨ digits > 0x8000000000000000 then .ok (.real (-digits.toUInt64.toFloat), s)
        else .ok (.whole (-digits), s)
      else .ok (.whole digits, s) := by
  rcases h.cases with rfl | ⟨b, r, rfl, rfl | rfl | rfl | rfl | rfl | rfl | rfl⟩ <;> rfl

/-! ## Digits -/

/-- The number behind `start` that some digits go on with. -/
def value (start : ℕ) (ds : Bytes) : ℕ := ds.foldl (fun v b => v * 10 + (b.toNat - 48)) start

/-- Nothing but digits. -/
def Digits (ds : Bytes) : Prop := ∀ b ∈ ds, (digit? b).isSome = true

theorem digit?_eq {b : UInt8} (h : (digit? b).isSome = true) : digit? b = some (b.toNat - 48) := by
  unfold digit? at h ⊢
  split
  · rfl
  · rename_i hb
    rw [if_neg hb] at h
    cases h

theorem le_value (start : ℕ) (ds : Bytes) : start ≤ value start ds := by
  induction ds generalizing start with
  | nil => exact le_rfl
  | cons b ds ih => exact le_trans (by omega) (ih (start * 10 + (b.toNat - 48)))

/-- Digits are taken as long as their number fits. -/
theorem takeDigits_append {ds : Bytes} (hds : Digits ds) (start count : ℕ) (rest : Bytes)
    (hle : value start ds ≤ maxWord) :
    takeDigits start count (ds ++ rest) = takeDigits (value start ds) (count + ds.length) rest := by
  induction ds generalizing start count with
  | nil => rfl
  | cons b ds ih =>
    have hfits : start * 10 + (b.toNat - 48) ≤ maxWord := (le_value _ ds).trans hle
    rw [List.cons_append, takeDigits, digit?_eq (hds b List.mem_cons_self)]
    simp only [if_pos hfits]
    rw [ih (fun c hc => hds c (List.mem_cons_of_mem b hc)) _ _ hle]
    simp only [value, List.foldl_cons, List.length_cons]
    congr 1
    omega

theorem takeDigits_of_noDigit {s : Bytes} (h : startsWithDigit s = false) (v count : ℕ) :
    takeDigits v count s = (v, count, s) := by
  cases s with
  | nil => rfl
  | cons b s =>
    cases hb : digit? b with
    | none => simp [takeDigits, hb]
    | some d => simp [startsWithDigit, hb] at h

/-! ## Decimal numbers -/

/-- The digits of a number. -/
def decimal (n : ℕ) : Bytes := textBytes (toString n)

theorem textBytes_append (s t : String) : textBytes (s ++ t) = textBytes s ++ textBytes t := by
  simp [textBytes]

theorem decimal_eq (n : ℕ) : decimal n = (Nat.toDigits 10 n).flatMap String.utf8EncodeChar := by
  simp [decimal, Nat.repr, textBytes, List.utf8Encode]

theorem utf8EncodeChar_digitChar : ∀ d < 10,
    String.utf8EncodeChar (Nat.digitChar d) = [(48 + d).toUInt8] := by
  decide

theorem decimal_of_lt {n : ℕ} (h : n < 10) : decimal n = [(48 + n).toUInt8] := by
  rw [decimal_eq, Nat.toDigits_of_lt_base h, List.flatMap_singleton, utf8EncodeChar_digitChar n h]

theorem decimal_append {n d : ℕ} (hn : 0 < n) (hd : d < 10) :
    decimal (10 * n + d) = decimal n ++ [(48 + d).toUInt8] := by
  rw [decimal_eq, decimal_eq, ← Nat.toDigits_append_toDigits (by norm_num) hn hd,
    List.flatMap_append, Nat.toDigits_of_lt_base hd, List.flatMap_singleton,
    utf8EncodeChar_digitChar d hd]

/-- A number is its last digit behind the number of the others. -/
theorem decimal_of_le {n : ℕ} (h : 10 ≤ n) :
    decimal n = decimal (n / 10) ++ [(48 + n % 10).toUInt8] := by
  rw [← decimal_append (by omega) (Nat.mod_lt n (by norm_num)), Nat.div_add_mod]

theorem digit?_toUInt8 :
    ∀ d < 10, digit? (48 + d).toUInt8 = some d ∧ (48 + d).toUInt8.toNat = 48 + d := by
  decide

theorem digits_decimal (n : ℕ) : Digits (decimal n) := by
  induction n using Nat.strong_induction_on with
  | _ n ih =>
    intro b hb
    by_cases h : n < 10
    · rw [decimal_of_lt h, List.mem_singleton] at hb
      rw [hb, (digit?_toUInt8 n h).1]
      rfl
    · rw [decimal_of_le (not_lt.1 h), List.mem_append, List.mem_singleton] at hb
      rcases hb with hb | rfl
      · exact ih (n / 10) (by omega) b hb
      · rw [(digit?_toUInt8 (n % 10) (by omega)).1]
        rfl

theorem value_decimal (n : ℕ) : value 0 (decimal n) = n := by
  induction n using Nat.strong_induction_on with
  | _ n ih =>
    by_cases h : n < 10
    · rw [decimal_of_lt h]
      simp only [value, List.foldl_cons, List.foldl_nil, (digit?_toUInt8 n h).2]
      omega
    · have hlast := ih (n / 10) (by omega)
      rw [value] at hlast
      rw [decimal_of_le (not_lt.1 h), value, List.foldl_append, hlast]
      simp only [List.foldl_cons, List.foldl_nil, (digit?_toUInt8 (n % 10) (by omega)).2]
      omega

/-- A number begins with a digit, and with zero only if it is zero. -/
theorem decimal_cons (n : ℕ) :
    ∃ b ds, decimal n = b :: ds ∧ (digit? b).isSome = true ∧ (b = 48 → n = 0) := by
  induction n using Nat.strong_induction_on with
  | _ n ih =>
    by_cases h : n < 10
    · obtain ⟨hdigit, hnat⟩ := digit?_toUInt8 n h
      refine ⟨_, [], decimal_of_lt h, by rw [hdigit]; rfl, fun hzero => ?_⟩
      rw [hzero] at hnat
      have : (48 : UInt8).toNat = 48 := rfl
      omega
    · obtain ⟨b, ds, heq, hb, hzero⟩ := ih (n / 10) (by omega)
      exact ⟨b, ds ++ [(48 + n % 10).toUInt8], by rw [decimal_of_le (not_lt.1 h), heq]; rfl, hb,
        fun hb => by have := hzero hb; omega⟩

/-! ## Whole numbers -/

theorem readUnsigned_decimal {n : ℕ} (hn : n ≤ maxWord) (negative : Bool) {rest : Bytes}
    (hstop : Stops rest) : readUnsigned negative (decimal n ++ rest) = readTail negative n rest := by
  have hnone := hstop.noDigit
  obtain ⟨b, ds, heq, -, hzero⟩ := decimal_cons n
  have hdigits := digits_decimal n
  have hvalue := value_decimal n
  rw [heq] at hdigits hvalue ⊢
  rw [List.cons_append]
  by_cases hb : b = 48
  · subst hb
    obtain rfl := hzero rfl
    obtain ⟨-, rfl⟩ := List.cons.inj (heq.symm.trans (decimal_of_lt (by norm_num)))
    simp only [readUnsigned, List.nil_append, hnone]
    rfl
  · have hds : Digits ds := fun c hc => hdigits c (List.mem_cons_of_mem b hc)
    have hfirst : value (b.toNat - 48) ds = n := by simpa [value] using hvalue
    rw [readUnsigned]
    · simp only [digit?_eq (hdigits b List.mem_cons_self)]
      rw [takeDigits_append hds _ _ _ (hfirst.trans_le hn), hfirst, takeDigits_of_noDigit hnone]
      simp only [hnone]
      rfl
    · exact hb

theorem writeInteger_negSucc (n : ℕ) : writeInteger (Int.negSucc n) = 45 :: decimal (n + 1) := by
  have hsign : toString (Int.negSucc n) = "-" ++ toString (n + 1) := rfl
  rw [writeInteger, hsign, textBytes_append]
  rfl

/-- A whole number begins with a minus sign or a digit. -/
theorem writeInteger_cons (n : ℤ) :
    ∃ b r, writeInteger n = b :: r ∧ (b = 45 ∨ (digit? b).isSome = true) := by
  cases n with
  | negSucc n => exact ⟨45, decimal (n + 1), writeInteger_negSucc n, .inl rfl⟩
  | ofNat n =>
    obtain ⟨b, ds, heq, hb, -⟩ := decimal_cons n
    exact ⟨b, ds, heq, .inr hb⟩

/-- **A whole number of 64 bits is read back from its digits.** -/
theorem read_writeInteger {n : ℤ} (hmin : -0x8000000000000000 ≤ n) (hmax : n ≤ 0xffffffffffffffff)
    {rest : Bytes} (hstop : Stops rest) :
    read (writeInteger n ++ rest) = .ok (.whole n, rest) := by
  cases n with
  | negSucc n =>
    have hfits : n + 1 ≤ 0x8000000000000000 := by omega
    rw [writeInteger_negSucc, List.cons_append, read,
      readUnsigned_decimal (hfits.trans (by decide)) _ hstop, readTail_of_stops hstop]
    rw [if_pos rfl, if_neg (by omega)]
    rfl
  | ofNat n =>
    have hfits : n ≤ maxWord := by
      rw [Int.ofNat_eq_natCast] at hmax
      exact Int.ofNat_le.1 hmax
    obtain ⟨b, ds, heq, hb, -⟩ := decimal_cons n
    have hminus : b ≠ 45 := by
      rintro rfl
      exact absurd hb (by decide)
    have hread : read (decimal n ++ rest) = readUnsigned false (decimal n ++ rest) := by
      rw [heq, List.cons_append, read]
      intro s hs
      exact hminus (List.cons.inj hs).1
    have hint : writeInteger (Int.ofNat n) = decimal n := rfl
    rw [hint, hread, readUnsigned_decimal hfits _ hstop, readTail_of_stops hstop]
    rfl

/-! ## Numbers that are skipped -/

/-- An integer part: zero, or digits that do not begin with zero. -/
inductive IsInteger : Bytes → Prop where
  | zero : IsInteger [48]
  | digits {b : UInt8} {ds : Bytes} (digit : (digit? b).isSome = true) (noZero : b ≠ 48)
      (rest : Digits ds) : IsInteger (b :: ds)

/-- A fraction, or nothing. -/
inductive IsFraction : Bytes → Prop where
  | none : IsFraction []
  | digits {b : UInt8} {ds : Bytes} (digit : (digit? b).isSome = true) (rest : Digits ds) :
      IsFraction (46 :: b :: ds)

/-- An exponent, or nothing. -/
inductive IsScale : Bytes → Prop where
  | none : IsScale []
  | digits {e b : UInt8} {sign ds : Bytes} (letter : e = 101 ∨ e = 69)
      (signed : sign = [] ∨ sign = [43] ∨ sign = [45]) (digit : (digit? b).isSome = true)
      (rest : Digits ds) : IsScale (e :: (sign ++ b :: ds))

/-- A number of any size, with or without a sign, a fraction and an exponent. -/
inductive IsNumber : Bytes → Prop where
  | positive {i f x : Bytes} (integer : IsInteger i) (fraction : IsFraction f) (scale : IsScale x) :
      IsNumber (i ++ (f ++ x))
  | negative {i f x : Bytes} (integer : IsInteger i) (fraction : IsFraction f) (scale : IsScale x) :
      IsNumber (45 :: (i ++ (f ++ x)))

theorem skipDigits_append {ds rest : Bytes} (hds : Digits ds) (hnone : startsWithDigit rest = false) :
    Json.skipDigits (ds ++ rest) = rest := by
  have hskip : ∀ count, (skipDigits count (ds ++ rest)).2 = rest := by
    induction ds with
    | nil =>
      intro count
      cases rest with
      | nil => rfl
      | cons b s =>
        cases hb : digit? b with
        | none => simp [skipDigits, hb]
        | some d => simp [startsWithDigit, hb] at hnone
    | cons b ds ih =>
      intro count
      rw [List.cons_append, skipDigits, digit?_eq (hds b List.mem_cons_self)]
      exact ih (fun c hc => hds c (List.mem_cons_of_mem b hc)) (count + 1)
  exact hskip 0

theorem skipExponent_append {b : UInt8} {sign ds rest : Bytes}
    (signed : sign = [] ∨ sign = [43] ∨ sign = [45]) (digit : (digit? b).isSome = true)
    (hds : Digits ds) (hnone : startsWithDigit rest = false) :
    skipExponent (sign ++ b :: (ds ++ rest)) = .ok rest := by
  have hsign : b ≠ 43 ∧ b ≠ 45 := by
    constructor <;> rintro rfl <;> exact absurd digit (by decide)
  rcases signed with rfl | rfl | rfl
  · simp [skipExponent, hsign.1, hsign.2, digit, skipDigits_append hds hnone]
  · simp [skipExponent, digit, skipDigits_append hds hnone]
  · simp [skipExponent, digit, skipDigits_append hds hnone]

theorem IsScale.skipScale {x rest : Bytes} (h : IsScale x) (hstop : Stops rest) :
    skipScale (x ++ rest) = .ok rest := by
  cases h with
  | none =>
    rcases hstop.cases with rfl | ⟨b, r, rfl, rfl | rfl | rfl | rfl | rfl | rfl | rfl⟩ <;> rfl
  | @digits e b sign ds letter signed digit hds =>
    have hskip := skipExponent_append signed digit hds hstop.noDigit
    rcases letter with rfl | rfl
    · simpa [Json.skipScale] using hskip
    · simpa [Json.skipScale] using hskip

theorem IsScale.noDigit {x rest : Bytes} (h : IsScale x) (hstop : Stops rest) :
    startsWithDigit (x ++ rest) = false := by
  cases h with
  | none => exact hstop.noDigit
  | digits letter => rcases letter with rfl | rfl <;> rfl

theorem IsFraction.noDigit {f x rest : Bytes} (h : IsFraction f) (hx : IsScale x)
    (hstop : Stops rest) : startsWithDigit (f ++ (x ++ rest)) = false := by
  cases h with
  | none => exact hx.noDigit hstop
  | digits => rfl

theorem skipUnsigned_zero {f x rest : Bytes} (fraction : IsFraction f) (scale : IsScale x)
    (hstop : Stops rest) : skipUnsigned (48 :: (f ++ (x ++ rest))) = .ok rest := by
  cases fraction with
  | none =>
    -- neither an exponent nor the end of a number begins with a point
    have hscale : skipUnsigned (48 :: (x ++ rest)) = Json.skipScale (x ++ rest) := by
      cases scale with
      | none =>
        rcases hstop.cases with rfl | ⟨b, r, rfl, rfl | rfl | rfl | rfl | rfl | rfl | rfl⟩ <;> rfl
      | digits letter => rcases letter with rfl | rfl <;> rfl
    exact hscale.trans (scale.skipScale hstop)
  | @digits b ds digit hds =>
    have hdigits : Digits (b :: ds) := List.forall_mem_cons.2 ⟨digit, hds⟩
    have hskip := skipDigits_append hdigits (scale.noDigit hstop)
    have hstart : startsWithDigit (b :: ds ++ (x ++ rest)) = true := digit
    show (if startsWithDigit (b :: ds ++ (x ++ rest)) then _ else _) = _
    rw [if_pos hstart]
    exact (congrArg Json.skipScale hskip).trans (scale.skipScale hstop)

/-- The digits before the point are skipped as a zero is. -/
theorem skipUnsigned_digits {b : UInt8} {ds s : Bytes} (digit : (digit? b).isSome = true)
    (noZero : b ≠ 48) (hds : Digits ds) (hnone : startsWithDigit s = false) :
    skipUnsigned (b :: (ds ++ s)) = skipUnsigned (48 :: s) := by
  simp [skipUnsigned, digit, skipDigits_append hds hnone, hnone]

/-- **A number is skipped up to its end.** -/
theorem skipUnsigned_append {i f x rest : Bytes} (integer : IsInteger i) (fraction : IsFraction f)
    (scale : IsScale x) (hstop : Stops rest) :
    skipUnsigned (i ++ (f ++ (x ++ rest))) = .ok rest := by
  have hzero := skipUnsigned_zero fraction scale hstop
  cases integer with
  | zero => exact hzero
  | digits digit noZero hds =>
    exact (skipUnsigned_digits digit noZero hds (fraction.noDigit scale hstop)).trans hzero

end Numeral

end JobQueue.Json
