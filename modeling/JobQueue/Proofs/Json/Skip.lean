/-
  Skipping JSON values.

  `IsValue` is the grammar of JSON: words, strings, numbers, lists and objects
  that stand in each other to any depth, with blanks between the tokens.  Every
  such value is skipped, whatever comes behind it (`IsValue.skips`).
-/
import JobQueue.Proofs.Json.Number

namespace JobQueue.Json

/-! ## Values -/

/-- A JSON value. -/
inductive IsValue : Bytes → Prop where
  | nullWord : IsValue (110 :: nullTail)
  | trueWord : IsValue (116 :: trueTail)
  | falseWord : IsValue (102 :: falseTail)
  | string {body : Bytes} (h : Text.IsBody body) : IsValue (34 :: (body ++ [34]))
  | number {s : Bytes} (h : Numeral.IsNumber s) : IsValue s
  | array {items : List Bytes} {s : Bytes} (values : ∀ v ∈ items, IsValue v)
      (laid : Spaced [] (joined 93 true (items.map fun v => [v])) s) : IsValue (91 :: s)
  | object {members : List (Bytes × Bytes)} {s : Bytes} (keys : ∀ m ∈ members, Text.IsBody m.1)
      (values : ∀ m ∈ members, IsValue m.2)
      (laid : Spaced [] (joined 125 true
        (members.map fun m => [34 :: (m.1 ++ [34]), [58], m.2])) s) : IsValue (123 :: s)

/-- A token is skipped, however it is laid out. -/
def Skips (skip : Bytes → Except Fault Bytes) (token : Bytes) : Prop :=
  ∀ ⦃tail ts s⦄, Closes ts → Spaced tail (token :: ts) s →
    ∃ s', Spaced tail ts s' ∧ skip s = .ok s'

theorem Numeral.IsInteger.cons {i : Bytes} (h : IsInteger i) :
    ∃ b r, i = b :: r ∧ (digit? b).isSome = true := by
  cases h with
  | zero => exact ⟨48, [], rfl, by decide⟩
  | digits digit => exact ⟨_, _, rfl, digit⟩

theorem Numeral.IsNumber.cons {s : Bytes} (h : IsNumber s) :
    ∃ b r, s = b :: r ∧ (b = 45 ∨ (digit? b).isSome = true) := by
  cases h with
  | positive integer =>
    obtain ⟨b, r, rfl, hb⟩ := integer.cons
    exact ⟨b, _, rfl, .inr hb⟩
  | negative => exact ⟨45, _, rfl, .inl rfl⟩

/-- A digit begins nothing but numbers. -/
theorem Numeral.ne_of_digit : ∀ b : UInt8, (digit? b).isSome = true →
    isSpace b = false ∧ b ≠ 34 ∧ b ≠ 45 ∧ b ≠ 91 ∧ b ≠ 93 ∧ b ≠ 102 ∧ b ≠ 110 ∧ b ≠ 116 ∧
      b ≠ 123 := by
  decide +kernel

/-- A value begins with a byte that is no blank and closes no list. -/
theorem IsValue.cons {v : Bytes} (h : IsValue v) :
    ∃ b r, v = b :: r ∧ isSpace b = false ∧ b ≠ 93 := by
  cases h with
  | nullWord | trueWord | falseWord | string | array | object =>
    exact ⟨_, _, rfl, by decide, by decide⟩
  | number h =>
    obtain ⟨b, r, rfl, rfl | hb⟩ := h.cons
    · exact ⟨45, r, rfl, by decide, by decide⟩
    · obtain ⟨hspace, -, -, -, hend, -⟩ := Numeral.ne_of_digit b hb
      exact ⟨b, r, rfl, hspace, hend⟩

theorem readWord_append (w s : Bytes) : readWord w (w ++ s) = .ok s := by
  induction w with
  | nil => cases s <;> rfl
  | cons a w ih => rw [List.cons_append, readWord, if_pos rfl, ih]

/-! ## Lists and objects -/

section
variable {value : Bytes → Except Fault Bytes} {tail s : Bytes} {ts : List Bytes} {bound : ℕ}

theorem skipItems_of_spaced {items : List Bytes} (values : ∀ v ∈ items, IsValue v)
    (skips : ∀ v ∈ items, Skips value v) (hbound : items.length < bound) (first : Bool)
    (h : Spaced tail (joined 93 first (items.map fun v => [v]) ++ ts) s) :
    ∃ s', Spaced tail ts s' ∧ skipItems value bound first s = .ok s' := by
  induction items generalizing bound first s with
  | nil =>
    obtain ⟨n, rfl⟩ := Nat.exists_eq_add_of_lt hbound
    have h : Spaced tail ([93] :: ts) s := by cases first <;> exact h
    obtain ⟨s', hs, hskip⟩ := h.skipSpace (by decide)
    exact ⟨s', hs, by simp [skipItems, hskip]⟩
  | cons v items ih =>
    obtain ⟨n, rfl⟩ := Nat.exists_eq_add_one_of_ne_zero (Nat.ne_zero_of_lt hbound)
    have hn : items.length < n := by simpa using hbound
    have hcloses := closes_joined 93 (.inl rfl) (items.map fun v => [v]) ts
    have hvalues := fun w hw => values w (List.mem_cons_of_mem v hw)
    have hskips := fun w hw => skips w (List.mem_cons_of_mem v hw)
    cases first with
    | true =>
      have h : Spaced tail (v :: (joined 93 false (items.map fun v => [v]) ++ ts)) s := h
      obtain ⟨b, r, heq, hb, hend⟩ := (values v List.mem_cons_self).cons
      rw [heq] at h
      obtain ⟨s₁, hskip, hs₁⟩ := h.trimmed hb
      rw [← heq] at hs₁
      obtain ⟨s₂, hs₂, hskipped⟩ := skips v List.mem_cons_self hcloses hs₁
      obtain ⟨s', hs', hitems⟩ := ih hvalues hskips hn false hs₂
      exact ⟨s', hs', by simp [skipItems, hskip, hend, hskipped, hitems]⟩
    | false =>
      have h : Spaced tail ([44] :: v :: (joined 93 false (items.map fun v => [v]) ++ ts)) s := h
      obtain ⟨s₁, hs₁, hskip⟩ := h.skipSpace (by decide)
      obtain ⟨s₂, hs₂, hskipped⟩ := skips v List.mem_cons_self hcloses hs₁
      obtain ⟨s', hs', hitems⟩ := ih hvalues hskips hn false hs₂
      exact ⟨s', hs', by simp [skipItems, hskip, hskipped, hitems]⟩

theorem skipPair_of_spaced {key v : Bytes} (hkey : Text.IsBody key) (skips : Skips value v)
    (hts : Closes ts) (h : Spaced tail ((34 :: (key ++ [34])) :: [58] :: v :: ts) s) :
    ∃ s', Spaced tail ts s' ∧ skipPair value s = .ok s' := by
  obtain ⟨s₁, hs₁, hskip⟩ := h.skipSpace (by decide)
  obtain ⟨s₂, hs₂, hcolon⟩ := hs₁.skipSpace (by decide)
  obtain ⟨s', hs', hvalue⟩ := skips hts hs₂
  refine ⟨s', hs', ?_⟩
  have hbody : Text.skipBody (key ++ 34 :: s₁) = .ok s₁ := hkey.skipBody s₁
  simp [skipPair, hskip, hbody, skipMember, hcolon, hvalue]

theorem skipMembers_of_spaced {members : List (Bytes × Bytes)}
    (keys : ∀ m ∈ members, Text.IsBody m.1) (skips : ∀ m ∈ members, Skips value m.2)
    (hbound : members.length < bound) (first : Bool)
    (h : Spaced tail (joined 125 first
      (members.map fun m => [34 :: (m.1 ++ [34]), [58], m.2]) ++ ts) s) :
    ∃ s', Spaced tail ts s' ∧ skipMembers value bound first s = .ok s' := by
  induction members generalizing bound first s with
  | nil =>
    obtain ⟨n, rfl⟩ := Nat.exists_eq_add_of_lt hbound
    have h : Spaced tail ([125] :: ts) s := by cases first <;> exact h
    obtain ⟨s', hs, hskip⟩ := h.skipSpace (by decide)
    exact ⟨s', hs, by simp [skipMembers, hskip]⟩
  | cons m members ih =>
    obtain ⟨n, rfl⟩ := Nat.exists_eq_add_one_of_ne_zero (Nat.ne_zero_of_lt hbound)
    have hn : members.length < n := by simpa using hbound
    have hcloses := closes_joined 125 (.inr rfl)
      (members.map fun m => [34 :: (m.1 ++ [34]), [58], m.2]) ts
    have hkey := keys m List.mem_cons_self
    have hvalue := skips m List.mem_cons_self
    have hkeys := fun w hw => keys w (List.mem_cons_of_mem m hw)
    have hskips := fun w hw => skips w (List.mem_cons_of_mem m hw)
    cases first with
    | true =>
      obtain ⟨s₁, hskip, hs₁⟩ := Spaced.trimmed (r := m.1 ++ [34]) h (by decide)
      obtain ⟨s₂, hs₂, hskipped⟩ := skipPair_of_spaced hkey hvalue hcloses hs₁
      obtain ⟨s', hs', hmembers⟩ := ih hkeys hskips hn false hs₂
      exact ⟨s', hs', by simp [skipMembers, hskip, hskipped, hmembers]⟩
    | false =>
      obtain ⟨s₁, hs₁, hskip⟩ := Spaced.skipSpace (c := 44) (r := []) h (by decide)
      obtain ⟨s₂, hs₂, hskipped⟩ := skipPair_of_spaced hkey hvalue hcloses hs₁
      obtain ⟨s', hs', hmembers⟩ := ih hkeys hskips hn false hs₂
      exact ⟨s', hs', by simp [skipMembers, hskip, hskipped, hmembers]⟩

end

/-! ## All values -/

theorem Numeral.IsNumber.skips {v : Bytes} (h : IsNumber v) (depth : ℕ) :
    Skips (skipNested depth) v := by
  intro tail ts s hts hs
  cases h with
  | negative integer fraction scale =>
    obtain ⟨s', hs', hskip⟩ := hs.skipSpace (by decide)
    have hnumber := skipUnsigned_append integer fraction scale (hs'.stops hts)
    refine ⟨s', hs', ?_⟩
    unfold skipNested
    simp [hskip, hnumber]
  | @positive i f x integer fraction scale =>
    obtain ⟨b, r, rfl, hb⟩ := integer.cons
    obtain ⟨hspace, hquote, hminus, hlist, -, hf, hn, ht, hobject⟩ := ne_of_digit b hb
    obtain ⟨s', hs', hskip⟩ := Spaced.skipSpace (r := r ++ (f ++ x)) hs hspace
    have hnumber := skipUnsigned_append integer fraction scale (hs'.stops hts)
    rw [List.cons_append] at hnumber
    refine ⟨s', hs', ?_⟩
    unfold skipNested
    simp [hskip, hquote, hminus, hlist, hf, hn, ht, hobject, hb, hnumber]

/-- **Every JSON value is skipped**, if it is not nested deeper than it may be. -/
theorem IsValue.skips {v : Bytes} (h : IsValue v) :
    ∀ {depth}, v.length ≤ depth → Skips (skipNested depth) v := by
  induction h with
  | nullWord | trueWord | falseWord =>
    intro depth _ tail ts s _ hs
    obtain ⟨s', hs', hskip⟩ := hs.skipSpace (by decide)
    exact ⟨s', hs', by unfold skipNested; simp [hskip, readWord_append]⟩
  | @string body h =>
    intro depth _ tail ts s _ hs
    obtain ⟨s', hs', hskip⟩ := hs.skipSpace (by decide)
    refine ⟨s', hs', ?_⟩
    have hbody : Text.skipBody (body ++ 34 :: s') = .ok s' := h.skipBody s'
    unfold skipNested
    simp [hskip, hbody]
  | number h => exact fun _ => h.skips _
  | @array items body values laid ih =>
    intro depth hdepth tail ts s hts hs
    obtain ⟨n, rfl⟩ := Nat.exists_eq_add_one_of_ne_zero (Nat.ne_zero_of_lt hdepth)
    obtain ⟨s₁, hs₁, hskip⟩ := hs.skipSpace (by decide)
    have hbody := laid.length_le
    have hcount := length_le_joined 93 true (items.map fun v => [v])
    have hbound : items.length < (body ++ s₁).length + 1 := by
      rw [List.length_map] at hcount
      rw [List.length_append]
      omega
    have hitems : ∀ v ∈ items, Skips (skipNested n) v := fun v hv => ih v hv (by
      have hle := length_le_of_mem_joined 93 true (List.mem_map_of_mem (f := fun v => [v]) hv)
      rw [List.flatten_singleton] at hle
      rw [List.length_cons] at hdepth
      omega)
    obtain ⟨s', hs', hskipped⟩ := skipItems_of_spaced values hitems hbound true (laid.append hs₁)
    refine ⟨s', hs', ?_⟩
    unfold skipNested
    simp only [hskip]
    exact hskipped
  | @object members body keys values laid ih =>
    intro depth hdepth tail ts s hts hs
    obtain ⟨n, rfl⟩ := Nat.exists_eq_add_one_of_ne_zero (Nat.ne_zero_of_lt hdepth)
    obtain ⟨s₁, hs₁, hskip⟩ := hs.skipSpace (by decide)
    have hbody := laid.length_le
    have hcount := length_le_joined 125 true
      (members.map fun m => [34 :: (m.1 ++ [34]), [58], m.2])
    have hbound : members.length < (body ++ s₁).length + 1 := by
      rw [List.length_map] at hcount
      rw [List.length_append]
      omega
    have hvalues : ∀ m ∈ members, Skips (skipNested n) m.2 := fun m hm => ih m hm (by
      have hle := length_le_of_mem_joined 125 true
        (List.mem_map_of_mem (f := fun m => [34 :: (m.1 ++ [34]), [58], m.2]) hm)
      simp only [List.flatten_cons, List.length_append] at hle
      rw [List.length_cons] at hdepth
      omega)
    obtain ⟨s', hs', hskipped⟩ := skipMembers_of_spaced keys hvalues hbound true (laid.append hs₁)
    refine ⟨s', hs', ?_⟩
    unfold skipNested
    simp only [hskip]
    exact hskipped

theorem skipValue_of_isValue {v : Bytes} (h : IsValue v) : Skips skipValue v := by
  intro tail ts s hts hs
  have hlength := hs.length_le
  refine h.skips ?_ hts hs
  simp only [List.flatten_cons, List.length_append] at hlength
  omega

end JobQueue.Json
