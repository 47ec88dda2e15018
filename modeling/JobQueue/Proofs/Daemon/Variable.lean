/-
  The texts of typed variables.

  A typed variable is of one of five kinds (`Kind`).  `Reads` is the grammar of
  each kind together with the value of each text: blanks around a literal or a
  word do not count, the case of a word does not either, and a literal has to
  be in the range of its kind.  A text is read just when it is of the kind of
  its variable (`Kind.parse_eq_ok_iff`), and `Blames` says what is said about
  any other text.
-/
import JobQueue.Proofs.Daemon.Names
import JobQueue.Proofs.Number.Literal

namespace JobQueue

namespace Literal

variable {cs : List Char}

/-- Literals have no blanks. -/
theorem Digits.solid (h : Digits cs) : ∀ c ∈ cs, ¬isBlank c := by
  intro c hc
  have hdigit := isDigit_iff.mp (h.isDigit c hc)
  simp only [Char.le_def, UInt32.le_iff_toNat_le] at hdigit
  exact not_isBlank_of_graphic ⟨le_trans (by decide) hdigit.1, le_trans hdigit.2 (by decide)⟩

theorem IsNatural.solid {n : Nat} (h : IsNatural cs n) : ∀ c ∈ cs, ¬isBlank c := by
  cases h with
  | bare h => exact h.solid
  | plus h => exact List.forall_mem_cons.mpr ⟨by decide, h.solid⟩

theorem IsInteger.solid {i : Int} (h : IsInteger cs i) : ∀ c ∈ cs, ¬isBlank c := by
  cases h with
  | natural h => exact h.solid
  | minus h => exact List.forall_mem_cons.mpr ⟨by decide, h.solid⟩

end Literal

namespace Settings

open Text (Padded)
open Literal (IsNatural IsInteger)

/-! ## Texts and their values -/

/-- A number of 64 bits. -/
def IsCount (raw : String) (n : Nat) : Prop :=
  (∃ body, Padded body raw.toList ∧ IsNatural body n) ∧ n ≤ 18446744073709551615

/-- A number of 64 bits, one of them for the sign. -/
def IsBound (raw : String) (i : Int64) : Prop :=
  ∃ body, Padded body raw.toList ∧ IsInteger body i.toInt

/-- The words for on and off. -/
def switchWords : Bool → List String
  | true => ["1", "true", "yes", "on"]
  | false => ["0", "false", "no", "off"]

/-- A word, each letter of which may be a capital. -/
def AnyCase (word : String) (cs : List Char) : Prop :=
  List.Forall₂ (fun c letter => c = letter ∨ c = letter.toUpper) cs word.toList

/-- A word for on or off. -/
def IsSwitch (raw : String) (b : Bool) : Prop :=
  ∃ body, Padded body raw.toList ∧ ∃ word ∈ switchWords b, AnyCase word body

/-- The kinds of typed variables. -/
inductive Kind where
  | count
  /-- A number of milliseconds. -/
  | span
  /-- A number of milliseconds that is not zero. -/
  | positiveSpan
  | switch
  | bound
  deriving DecidableEq

/-- What the variables of a kind are read as. -/
@[reducible] def Kind.Value : Kind → Type
  | count => Nat
  | span => Span
  | positiveSpan => Span
  | switch => Bool
  | bound => Int64

/-- A text of a kind, and its value. -/
def Kind.Reads : (k : Kind) → String → k.Value → Prop
  | count, raw, n => IsCount raw n
  | span, raw, d => ∃ n, IsCount raw n ∧ d = .ofMillis n
  | positiveSpan, raw, d => ∃ n, IsCount raw n ∧ n ≠ 0 ∧ d = .ofMillis n
  | switch, raw, b => IsSwitch raw b
  | bound, raw, i => IsBound raw i

/-- A typed variable. -/
structure Typed where
  key : String
  kind : Kind

/-- The typed variables, in the order in which they are read. -/
def typed : List Typed :=
  [⟨workerCountKey, .count⟩, ⟨pollIntervalKey, .positiveSpan⟩, ⟨jobTimeoutKey, .positiveSpan⟩,
    ⟨shutdownTimeoutKey, .span⟩, ⟨cleanupIntervalKey, .positiveSpan⟩, ⟨cleanupRetentionKey, .span⟩,
    ⟨rateLimitingKey, .switch⟩, ⟨perHourKey, .bound⟩, ⟨concurrentKey, .bound⟩,
    ⟨maxBackoffKey, .positiveSpan⟩, ⟨recoveryWindowKey, .span⟩]

/-- A variable is absent, or its text is of its kind. -/
def Typed.Fine (v : Typed) (vars : Variables) : Prop :=
  ∀ raw, vars v.key = some raw → ∃ value, v.kind.Reads raw value

/-- What is said about a variable with a text that is not of its kind. -/
inductive Typed.Blames (v : Typed) (raw : String) : SettingFault → Prop
  | count {why : Literal.Fault} : v.kind = .count ∨ v.kind = .span ∨ v.kind = .positiveSpan →
      (∀ n, ¬IsCount raw n) → v.Blames raw (.number v.key raw why)
  | bound {why : Literal.Fault} : v.kind = .bound → (∀ i, ¬IsBound raw i) →
      v.Blames raw (.number v.key raw why)
  | zero : v.kind = .positiveSpan → IsCount raw 0 → v.Blames raw (.zero v.key)
  | switch : v.kind = .switch → (∀ b, ¬IsSwitch raw b) → v.Blames raw (.flag v.key raw)

/-! ## Reading single variables -/

section
variable {key raw : String} {n : Nat}

theorem natural_eq_ok_iff : natural key raw = .ok n ↔ IsCount raw n := by
  have read : natural key raw = .ok n ↔
      Literal.readNat Literal.max64 (Text.trimChars raw.toList) = .ok n := by
    rw [natural]
    cases Literal.readNat Literal.max64 (Text.trimChars raw.toList) <;> simp
  rw [read, Literal.readNat_eq_ok_iff, IsCount, Text.exists_padded_iff fun _ h => h.solid]
  rfl

theorem natural_error {f : SettingFault} (h : natural key raw = .error f) :
    (∃ why, f = .number key raw why) ∧ ∀ n, ¬IsCount raw n := by
  refine ⟨?_, fun n hn => ?_⟩
  · rw [natural] at h
    split at h
    · cases h
    · cases h
      exact ⟨_, rfl⟩
  · rw [natural_eq_ok_iff.mpr hn] at h
    cases h

theorem integer_eq_ok_iff {i : Int64} : integer key raw = .ok i ↔ IsBound raw i := by
  have lower := Int64.le_toInt i
  have upper := Int64.toInt_lt i
  have read : integer key raw = .ok i ↔ Literal.readInt 0x8000000000000000 0x7fffffffffffffff
      (Text.trimChars raw.toList) = .ok i.toInt := by
    rw [integer]
    cases hr : Literal.readInt 0x8000000000000000 0x7fffffffffffffff
      (Text.trimChars raw.toList) with
    | ok m =>
      obtain ⟨-, hlo, hhi⟩ := Literal.readInt_eq_ok_iff.mp hr
      have back : (Int64.ofInt m).toInt = m := Int64.toInt_ofInt_of_le hlo (by omega)
      simp only [Except.ok.injEq]
      constructor
      · rintro rfl
        exact back.symm
      · rintro rfl
        exact Int64.ofInt_toInt i
    | error why => simp
  rw [read, Literal.readInt_eq_ok_iff, IsBound, Text.exists_padded_iff fun _ h => h.solid]
  constructor
  · exact fun h => h.1
  · exact fun h => ⟨h, by omega, by omega⟩

theorem integer_error {f : SettingFault} (h : integer key raw = .error f) :
    (∃ why, f = .number key raw why) ∧ ∀ i, ¬IsBound raw i := by
  refine ⟨?_, fun i hi => ?_⟩
  · rw [integer] at h
    split at h
    · cases h
    · cases h
      exact ⟨_, rfl⟩
  · rw [integer_eq_ok_iff.mpr hi] at h
    cases h

/-- A letter and its capital are what is read as that letter. -/
theorem toLower_eq_iff {c letter : Char} (small : letter.toLower = letter) :
    c.toLower = letter ↔ c = letter ∨ c = letter.toUpper := by
  constructor
  · rintro rfl
    by_cases hc : c.isUpper
    · right
      rw [Char.toUpper_toLower_eq_toUpper,
        Char.toUpper_eq_of_not_isLower (Char.not_isLower_of_isUpper hc)]
    · left
      exact (Char.toLower_eq_of_not_isUpper hc).symm
  · rintro (rfl | rfl)
    · exact small
    · rw [Char.toLower_toUpper_eq_toLower, small]

theorem anyCase_iff {word : String} (small : ∀ letter ∈ word.toList, letter.toLower = letter)
    {cs : List Char} : AnyCase word cs ↔ String.ofList (cs.map Char.toLower) = word := by
  rw [← String.toList_inj, String.toList_ofList, ← List.forall₂_eq_eq_eq,
    List.forall₂_map_left_iff, AnyCase]
  generalize word.toList = letters at small
  induction letters generalizing cs with
  | nil => simp
  | cons letter letters ih =>
    rw [List.forall_mem_cons] at small
    cases cs with
    | nil => simp
    | cons c cs => rw [List.forall₂_cons, List.forall₂_cons, toLower_eq_iff small.1, ih small.2]

theorem switchWords_small :
    ∀ b, ∀ word ∈ switchWords b, ∀ letter ∈ word.toList, letter.toLower = letter := by
  intro b
  cases b <;> simp [switchWords]

theorem switchWords_solid : ∀ b, ∀ word ∈ switchWords b, ∀ letter ∈ word.toList,
    ¬isBlank letter ∧ ¬isBlank letter.toUpper := by
  intro b
  cases b <;> simp [switchWords, isBlank]

theorem AnyCase.solid {b : Bool} {word : String} (hword : word ∈ switchWords b) {cs : List Char}
    (h : AnyCase word cs) : ∀ c ∈ cs, ¬isBlank c := by
  intro c hc
  have read := (anyCase_iff (switchWords_small b word hword)).mp h
  have hmem : c.toLower ∈ word.toList := by
    rw [← read, String.toList_ofList]
    exact List.mem_map_of_mem hc
  obtain ⟨small, capital⟩ := switchWords_solid b word hword _ hmem
  rcases (toLower_eq_iff (Char.toLower_toLower_eq_toLower c)).mp rfl with h | h
  · rwa [h]
  · rwa [h]

theorem switch_eq_ok_iff {b : Bool} : switch key raw = .ok b ↔ IsSwitch raw b := by
  have words : IsSwitch raw b ↔
      String.ofList ((Text.trimChars raw.toList).map Char.toLower) ∈ switchWords b := by
    rw [IsSwitch, Text.exists_padded_iff fun _ ⟨word, hword, h⟩ => h.solid hword]
    constructor
    · rintro ⟨word, hword, h⟩
      rwa [(anyCase_iff (switchWords_small b word hword)).mp h]
    · intro h
      exact ⟨_, h, (anyCase_iff (switchWords_small b _ h)).mpr rfl⟩
  have apart : ∀ word ∈ switchWords false, word ∉ switchWords true := by decide
  rw [words]
  simp only [switch]
  generalize String.ofList ((Text.trimChars raw.toList).map Char.toLower) = word
  show (if word ∈ switchWords true then _ else if word ∈ switchWords false then _ else _) = _ ↔ _
  by_cases hon : word ∈ switchWords true
  · have hoff : word ∉ switchWords false := fun h => apart word h hon
    cases b <;> simp [hon, hoff]
  · by_cases hoff : word ∈ switchWords false <;> cases b <;> simp [hon, hoff]

theorem switch_error {f : SettingFault} (h : switch key raw = .error f) :
    f = .flag key raw ∧ ∀ b, ¬IsSwitch raw b := by
  refine ⟨?_, fun b hb => ?_⟩
  · simp only [switch] at h
    split at h
    · cases h
    · split at h
      · cases h
      · cases h
        rfl
  · rw [switch_eq_ok_iff.mpr hb] at h
    cases h

/-- How a variable of a kind is read. -/
def Kind.parse : (k : Kind) → (key raw : String) → Except SettingFault k.Value
  | .count => natural
  | .span => millis
  | .positiveSpan => positiveMillis
  | .switch => Settings.switch
  | .bound => integer

theorem millis_eq_ok_iff {d : Span} :
    millis key raw = .ok d ↔ ∃ n, IsCount raw n ∧ d = .ofMillis n := by
  rw [millis, map_eq_ok_iff]
  simp only [natural_eq_ok_iff]

theorem ofMillis_eq_zero_iff : Span.ofMillis n = .zero ↔ n = 0 := by
  rw [Span.ofMillis, Span.zero, Span.mk.injEq]
  omega

theorem positiveMillis_eq_ok_iff {d : Span} :
    positiveMillis key raw = .ok d ↔ ∃ n, IsCount raw n ∧ n ≠ 0 ∧ d = .ofMillis n := by
  rw [positiveMillis]
  constructor
  · intro h
    split at h
    case h_1 d' hd =>
      obtain ⟨n, hn, rfl⟩ := millis_eq_ok_iff.mp hd
      split at h
      case isTrue => cases h
      case isFalse hne =>
        cases h
        exact ⟨n, hn, fun h0 => hne (ofMillis_eq_zero_iff.mpr h0), rfl⟩
    case h_2 => cases h
  · rintro ⟨n, hn, hne, rfl⟩
    rw [millis_eq_ok_iff.mpr ⟨n, hn, rfl⟩]
    exact if_neg fun h => hne (ofMillis_eq_zero_iff.mp h)

theorem positiveMillis_error {f : SettingFault} (h : positiveMillis key raw = .error f) :
    (f = .zero key ∧ IsCount raw 0) ∨ natural key raw = .error f := by
  rw [positiveMillis] at h
  split at h
  case h_1 d hd =>
    obtain ⟨n, hn, rfl⟩ := millis_eq_ok_iff.mp hd
    split at h
    case isTrue hzero =>
      cases h
      rw [ofMillis_eq_zero_iff.mp hzero] at hn
      exact .inl ⟨rfl, hn⟩
    case isFalse => cases h
  case h_2 why hwhy =>
    cases h
    exact .inr (map_eq_error_iff.mp hwhy)

/-- The texts that are read are those of the kind, and they are read as their values. -/
theorem Kind.parse_eq_ok_iff {k : Kind} {v : k.Value} :
    k.parse key raw = .ok v ↔ k.Reads raw v := by
  cases k with
  | count => exact natural_eq_ok_iff
  | span => exact millis_eq_ok_iff
  | positiveSpan => exact positiveMillis_eq_ok_iff
  | switch =>
    show Settings.switch key raw = .ok v ↔ IsSwitch raw v
    exact switch_eq_ok_iff
  | bound => exact integer_eq_ok_iff

/-- What is said about a text that is not read. -/
theorem Typed.blames_of_error {v : Typed} {f : SettingFault}
    (h : v.kind.parse v.key raw = .error f) : v.Blames raw f := by
  obtain ⟨key, kind⟩ := v
  cases kind with
  | count =>
    obtain ⟨⟨why, rfl⟩, none⟩ := natural_error h
    exact .count (.inl rfl) none
  | span =>
    obtain ⟨⟨why, rfl⟩, none⟩ := natural_error (map_eq_error_iff.mp h)
    exact .count (.inr (.inl rfl)) none
  | positiveSpan =>
    rcases positiveMillis_error h with ⟨rfl, hzero⟩ | h
    · exact .zero rfl hzero
    · obtain ⟨⟨why, rfl⟩, none⟩ := natural_error h
      exact .count (.inr (.inr rfl)) none
  | switch =>
    have h : Settings.switch key raw = .error f := h
    obtain ⟨rfl, none⟩ := switch_error h
    exact .switch rfl none
  | bound =>
    obtain ⟨⟨why, rfl⟩, none⟩ := integer_error h
    exact .bound rfl none

end

end Settings

end JobQueue
