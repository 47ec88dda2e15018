/-
  What a producer may submit, and what becomes of it.

  A queue name has 1 to 64 characters of an ASCII alphabet (`IsQueueName`), and
  a submission is `Acceptable` if its four parts keep to the rules.  The checks
  count bytes where the rules speak of characters; for the characters of queue
  names that is the same.  `Breaks` is the first rule that a submission
  violates, so that the outcome of the checks follows from the submission alone
  (`check_eq_ok_iff`, `check_of_not_acceptable`).
-/
import JobQueue.Submission
import Mathlib

namespace JobQueue

/-! ## When a new job is due -/

/-- When a job submitted at `now` is due.  A delay counts in whole milliseconds; it and the sum end
    with the range of the clock. -/
def Schedule.Due (now due : Millis) : Schedule → Prop
  | .now => due = now
  | .at time => due = time
  | .after delay => due.toInt =
      min (now.toInt + min (delay.wholeMillis : Int) Int64.maxValue.toInt) Int64.maxValue.toInt

theorem Schedule.due_resolve (s : Schedule) (now : Millis) : s.Due now (s.resolve now) := by
  cases s with
  | now => rfl
  | «at» time => rfl
  | after delay =>
    have hmax : Int64.maxValue.toInt = 0x7fffffffffffffff := by decide
    have lower := Int64.le_toInt now
    simp only [Due, resolve, addClamped, Span.toMillis, toInt_clamp, hmax]
    omega

/-- `job` is the waiting job that a submission becomes under the name `id` at `now`. -/
structure Job.IsSubmitted (job : Job) (id : String) (now : Millis) (sub : Submission) : Prop where
  id_eq : job.id = id
  queue_eq : job.queue = sub.queue
  type_eq : job.type = sub.type
  org_eq : job.org = sub.org
  payload_eq : job.payload = sub.payload
  priority_eq : job.priority = sub.options.priority
  maxAttempts_eq : job.maxAttempts = sub.options.maxAttempts
  due : sub.options.schedule.Due now job.scheduledAt
  createdAt_eq : job.createdAt = now
  pending : job.status = .pending
  attempts_eq : job.attempts = 0
  untouched : job.startedAt = none ∧ job.completedAt = none ∧ job.worker = none ∧
    job.result = none ∧ job.error = none

namespace Submission

theorem isSubmitted_toJob (sub : Submission) (id : String) (now : Millis) :
    (sub.toJob id now).IsSubmitted id now sub where
  id_eq := rfl
  queue_eq := rfl
  type_eq := rfl
  org_eq := rfl
  payload_eq := rfl
  priority_eq := rfl
  maxAttempts_eq := rfl
  due := sub.options.schedule.due_resolve now
  createdAt_eq := rfl
  pending := rfl
  attempts_eq := rfl
  untouched := ⟨rfl, rfl, rfl, rfl, rfl⟩

/-! ## Queue names -/

/-- The alphabet of queue names: `A` to `Z`, `a` to `z`, `0` to `9`, `_`, `.` and `-`. -/
def IsQueueChar (c : Char) : Prop :=
  ('A' ≤ c ∧ c ≤ 'Z') ∨ ('a' ≤ c ∧ c ≤ 'z') ∨ ('0' ≤ c ∧ c ≤ '9') ∨ c = '_' ∨ c = '.' ∨ c = '-'

/-- A queue name has 1 to 64 characters of the alphabet. -/
structure IsQueueName (name : String) : Prop where
  nonempty : 1 ≤ name.length
  short : name.length ≤ 64
  chars : ∀ c ∈ name.toList, IsQueueChar c

theorem isQueueChar_iff {c : Char} : isQueueChar c = true ↔ IsQueueChar c := by
  simp only [isQueueChar, IsQueueChar, Char.isAlphanum, Char.isAlpha, Char.isUpper, Char.isLower,
    Char.isDigit, Char.le_def, Bool.or_eq_true, Bool.and_eq_true, decide_eq_true_eq, beq_iff_eq]
  tauto

instance (c : Char) : Decidable (IsQueueChar c) := decidable_of_iff _ isQueueChar_iff

/-- The characters of queue names are among the graphic characters of ASCII. -/
theorem IsQueueChar.graphic {c : Char} (h : IsQueueChar c) : 0x21 ≤ c.toNat ∧ c.toNat ≤ 0x7e := by
  simp only [IsQueueChar, Char.le_def, UInt32.le_iff_toNat_le] at h
  rcases h with ⟨h₁, h₂⟩ | ⟨h₁, h₂⟩ | ⟨h₁, h₂⟩ | rfl | rfl | rfl
  · exact ⟨le_trans (by decide) h₁, le_trans h₂ (by decide)⟩
  · exact ⟨le_trans (by decide) h₁, le_trans h₂ (by decide)⟩
  · exact ⟨le_trans (by decide) h₁, le_trans h₂ (by decide)⟩
  all_goals decide

theorem IsQueueChar.utf8Size {c : Char} (h : IsQueueChar c) : c.utf8Size = 1 := by
  have := h.graphic.2
  rw [Char.utf8Size_eq_one_iff, UInt32.le_iff_toNat_le]
  exact le_trans this (by decide)

/-- A text of such characters has as many bytes as characters. -/
theorem utf8ByteSize_eq_length {name : String} (h : ∀ c ∈ name.toList, IsQueueChar c) :
    name.utf8ByteSize = name.length := by
  have count : ∀ cs : List Char, (∀ c ∈ cs, IsQueueChar c) → String.utf8Len cs = cs.length := by
    intro cs hcs
    induction cs with
    | nil => rfl
    | cons c cs ih =>
      rw [List.forall_mem_cons] at hcs
      rw [String.utf8Len_cons, ih hcs.2, hcs.1.utf8Size, List.length_cons]
  rw [← String.length_toList, ← count _ h, ← String.utf8ByteSize_ofList, String.ofList_toList]

/-- How a text fails to be a queue name.  What is not empty and too long is not looked at any
    further. -/
inductive BadQueue (name : String) : Rejection → Prop
  | empty : name = "" → BadQueue name .queueEmpty
  | tooLong : 64 < name.utf8ByteSize → BadQueue name (.queueTooLong name.utf8ByteSize)
  | alphabet {c : Char} : name.utf8ByteSize ≤ 64 → c ∈ name.toList → ¬IsQueueChar c →
      BadQueue name (.queueAlphabet name)

theorem BadQueue.not_isQueueName {name : String} {why : Rejection} (h : BadQueue name why) :
    ¬IsQueueName name := by
  intro good
  cases h with
  | empty h => simpa [h] using good.nonempty
  | tooLong h =>
    have := good.short
    rw [utf8ByteSize_eq_length good.chars] at h
    omega
  | alphabet _ hc bad => exact bad (good.chars _ hc)

/-- Queue names pass, and what is not one is refused for what is wrong with it. -/
theorem checkQueue_cases (name : String) :
    (IsQueueName name ∧ checkQueue name = .ok ()) ∨
      ∃ why, BadQueue name why ∧ checkQueue name = .error why := by
  unfold checkQueue
  split
  case isTrue hempty => exact .inr ⟨_, .empty (String.isEmpty_iff.mp hempty), rfl⟩
  case isFalse hne =>
    split
    case isTrue hlong => exact .inr ⟨_, .tooLong hlong, rfl⟩
    case isFalse hshort =>
      have hshort : name.utf8ByteSize ≤ 64 := Nat.le_of_not_lt hshort
      split
      case isTrue hall =>
        have chars : ∀ c ∈ name.toList, IsQueueChar c := by
          simpa [isQueueChar_iff] using hall
        refine .inl ⟨⟨?_, utf8ByteSize_eq_length chars ▸ hshort, chars⟩, rfl⟩
        rw [Nat.one_le_iff_ne_zero, ne_eq, ← String.length_toList, List.length_eq_zero_iff,
          String.toList_eq_nil_iff, ← String.isEmpty_iff]
        exact hne
      case isFalse hsome =>
        simp only [List.all_eq_true, isQueueChar_iff, not_forall] at hsome
        obtain ⟨c, hc, bad⟩ := hsome
        exact .inr ⟨_, .alphabet hshort hc bad, rfl⟩

theorem checkQueue_eq_ok_iff {name : String} : checkQueue name = .ok () ↔ IsQueueName name := by
  rcases checkQueue_cases name with ⟨good, h⟩ | ⟨why, bad, h⟩
  · simp [good, h]
  · simp [bad.not_isQueueName, h]

instance (name : String) : Decidable (IsQueueName name) := decidable_of_iff _ checkQueue_eq_ok_iff

/-! ## All rules -/

/-- A submission that a producer may make. -/
structure Acceptable (sub : Submission) : Prop where
  queue : IsQueueName sub.queue
  type : ∃ c ∈ sub.type.toList, ¬isBlank c
  attempts : 1 ≤ sub.options.maxAttempts.toInt
  payload : sub.payload.size ≤ 262144

/-- The first rule that a submission violates: every rule but the first has those before it as
    conditions. -/
inductive Breaks (sub : Submission) : Rejection → Prop
  | queue {why : Rejection} : BadQueue sub.queue why → Breaks sub why
  | type : IsQueueName sub.queue → (∀ c ∈ sub.type.toList, isBlank c) → Breaks sub .typeBlank
  | attempts : IsQueueName sub.queue → (∃ c ∈ sub.type.toList, ¬isBlank c) →
      sub.options.maxAttempts.toInt < 1 → Breaks sub (.tooFewAttempts sub.options.maxAttempts)
  | payload : IsQueueName sub.queue → (∃ c ∈ sub.type.toList, ¬isBlank c) →
      1 ≤ sub.options.maxAttempts.toInt → 262144 < sub.payload.size →
      Breaks sub (.payloadTooLarge sub.payload.size)

variable {sub : Submission}

theorem Breaks.not_acceptable {why : Rejection} (h : Breaks sub why) : ¬sub.Acceptable := by
  intro ok
  cases h with
  | queue bad => exact bad.not_isQueueName ok.queue
  | type _ blank =>
    obtain ⟨c, hc, solid⟩ := ok.type
    exact solid (blank c hc)
  | attempts _ _ few => exact absurd ok.attempts (Int.not_le.mpr few)
  | payload _ _ _ large => exact absurd ok.payload (Nat.not_le.mpr large)

theorem checkType_cases (type : String) :
    ((∃ c ∈ type.toList, ¬isBlank c) ∧ checkType type = .ok ()) ∨
      (∀ c ∈ type.toList, isBlank c) ∧ checkType type = .error .typeBlank := by
  unfold checkType Text.allBlank
  split
  case isTrue h => exact .inr ⟨List.all_eq_true.mp h, rfl⟩
  case isFalse h =>
    simp only [List.all_eq_true, not_forall] at h
    obtain ⟨c, hc, solid⟩ := h
    exact .inl ⟨⟨c, hc, solid⟩, rfl⟩

theorem checkOptions_cases (o : Options) :
    (1 ≤ o.maxAttempts.toInt ∧ checkOptions o = .ok ()) ∨
      o.maxAttempts.toInt < 1 ∧ checkOptions o = .error (.tooFewAttempts o.maxAttempts) := by
  unfold checkOptions
  split
  case isTrue few => exact .inr ⟨Int32.lt_iff_toInt_lt.mp few, rfl⟩
  case isFalse enough =>
    rw [Int32.lt_iff_toInt_lt] at enough
    exact .inl ⟨Int.not_lt.mp enough, rfl⟩

theorem checkPayload_cases (p : Payload) :
    (p.size ≤ 262144 ∧ checkPayload p = .ok ()) ∨
      262144 < p.size ∧ checkPayload p = .error (.payloadTooLarge p.size) := by
  unfold checkPayload maxPayloadBytes
  split
  case isTrue large => exact .inr ⟨large, rfl⟩
  case isFalse small => exact .inl ⟨Nat.not_lt.mp small, rfl⟩

/-- A submission passes the checks if it is acceptable, and otherwise is refused for the first rule
    that it violates. -/
theorem check_cases (sub : Submission) :
    (sub.Acceptable ∧ sub.check = .ok ()) ∨ ∃ why, Breaks sub why ∧ sub.check = .error why := by
  unfold check
  rcases checkQueue_cases sub.queue with ⟨hqueue, h⟩ | ⟨why, bad, h⟩
  · rw [h]
    rcases checkType_cases sub.type with ⟨htype, h⟩ | ⟨blank, h⟩
    · rw [h]
      rcases checkOptions_cases sub.options with ⟨hattempts, h⟩ | ⟨few, h⟩
      · rw [h]
        rcases checkPayload_cases sub.payload with ⟨hpayload, h⟩ | ⟨large, h⟩
        · rw [h]
          exact .inl ⟨⟨hqueue, htype, hattempts, hpayload⟩, rfl⟩
        · rw [h]
          exact .inr ⟨_, .payload hqueue htype hattempts large, rfl⟩
      · rw [h]
        exact .inr ⟨_, .attempts hqueue htype few, rfl⟩
    · rw [h]
      exact .inr ⟨_, .type hqueue blank, rfl⟩
  · rw [h]
    exact .inr ⟨why, .queue bad, rfl⟩

theorem check_eq_ok_iff : sub.check = .ok () ↔ sub.Acceptable := by
  rcases check_cases sub with ⟨ok, h⟩ | ⟨why, breaks, h⟩
  · simp [ok, h]
  · simp [breaks.not_acceptable, h]

instance (sub : Submission) : Decidable sub.Acceptable := decidable_of_iff _ check_eq_ok_iff

theorem check_of_not_acceptable (h : ¬sub.Acceptable) :
    ∃ why, Breaks sub why ∧ sub.check = .error why := by
  rcases check_cases sub with ⟨ok, -⟩ | breaks
  · exact absurd ok h
  · exact breaks

end Submission

end JobQueue
