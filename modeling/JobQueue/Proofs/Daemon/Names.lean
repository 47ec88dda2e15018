/-
  Lists of names in a text.

  `Written xs cs` says that `cs` is the list `xs` written with commas: every
  stretch between two commas is blank, or it is a name with blanks around it.
  What is read from a text is a list that it is the writing of
  (`written_names`), and of all lists of proper names it is the only one
  (`names_of_written`): a name is proper if it can be written so at all, and
  the names of queues are.
-/
import JobQueue.Daemon.Settings
import JobQueue.Proofs.Submission
import JobQueue.Proofs.Text.Blank

namespace JobQueue

open Text (Padded Trimmed)

variable {c : Char} {cs : List Char} {q : String} {xs : List String}

/-- Graphic characters of ASCII are not blank. -/
theorem not_isBlank_of_graphic (h : 0x21 ≤ c.toNat ∧ c.toNat ≤ 0x7e) : ¬isBlank c := by
  obtain ⟨hlo, hhi⟩ := h
  simp only [isBlank, Bool.or_eq_true, Bool.and_eq_true, decide_eq_true_eq, beq_iff_eq]
  omega

namespace Settings

/-- A list of names, written with commas. -/
inductive Written : List String → List Char → Prop
  /-- A stretch of blanks has no name. -/
  | blank {cs : List Char} : (∀ c ∈ cs, isBlank c) → Written [] cs
  | name {q : String} {cs : List Char} : Padded q.toList cs → Written [q] cs
  | comma {xs ys : List String} {as bs : List Char} : Written xs as → Written ys bs →
      Written (xs ++ ys) (as ++ ',' :: bs)

/-- A name that is not lost and not changed when it is written in a list. -/
structure Proper (q : String) : Prop where
  nonempty : q ≠ ""
  whole : ',' ∉ q.toList
  trimmed : Trimmed q.toList

theorem proper_of_isQueueName (h : Submission.IsQueueName q) : Proper q where
  nonempty := by
    rintro rfl
    exact absurd h.nonempty (by decide)
  whole hmem := absurd (h.chars _ hmem) (by decide)
  trimmed := Text.trimmed_of_solid fun c hc => not_isBlank_of_graphic (h.chars c hc).graphic

/-! ## Reading -/

theorem names_comma (as bs : List Char) :
    names (String.ofList (as ++ ',' :: bs)) =
      names (String.ofList as) ++ names (String.ofList bs) := by
  simp [names, Text.split, Text.splitChars_append]

theorem names_piece (whole : ',' ∉ cs) :
    names (String.ofList cs) =
      if Text.trimChars cs = [] then [] else [String.ofList (Text.trimChars cs)] := by
  by_cases hnil : Text.trimChars cs = []
  · simp [names, Text.split, Text.splitChars_of_notMem whole, Text.trim, hnil]
  · simp [names, Text.split, Text.splitChars_of_notMem whole, Text.trim, hnil]

/-- The names that are read are the ones that are written, if these are proper. -/
theorem names_of_written (written : Written xs cs) (proper : ∀ q ∈ xs, Proper q) :
    names (String.ofList cs) = xs := by
  induction written with
  | blank hblank =>
    have whole : ',' ∉ _ := fun hmem => absurd (hblank ',' hmem) (by decide)
    rw [names_piece whole, if_pos (Text.trimChars_eq_nil_iff.mpr hblank)]
  | @name q cs hpad =>
    have hq : Proper q := proper q List.mem_cons_self
    have found : Text.trimChars cs = q.toList := hpad.trimChars_eq hq.trimmed
    have whole : ',' ∉ cs := by
      intro hmem
      obtain ⟨hbefore, hafter⟩ := hpad
      simp only [List.mem_append] at hmem
      rcases hmem with (hmem | hmem) | hmem
      · exact absurd (hbefore ',' hmem) (by decide)
      · exact hq.whole hmem
      · exact absurd (hafter ',' hmem) (by decide)
    have hne : q.toList ≠ [] := fun h => hq.nonempty (String.toList_eq_nil_iff.mp h)
    rw [names_piece whole, found, if_neg hne, String.ofList_toList]
  | comma _ _ ihxs ihys =>
    rw [names_comma, ihxs fun q hq => proper q (List.mem_append_left _ hq),
      ihys fun q hq => proper q (List.mem_append_right _ hq)]

theorem written_piece (whole : ',' ∉ cs) :
    Written (names (String.ofList cs)) cs ∧ ∀ q ∈ names (String.ofList cs), Proper q := by
  rw [names_piece whole]
  split
  case isTrue hnil => exact ⟨.blank (Text.trimChars_eq_nil_iff.mp hnil), by simp⟩
  case isFalse hne =>
    have padded := Text.padded_trimChars cs
    refine ⟨.name (by simpa using padded), ?_⟩
    intro q hq
    obtain rfl := List.mem_singleton.mp hq
    refine ⟨fun h => hne ?_, ?_, ?_⟩
    · rwa [← String.toList_eq_nil_iff, String.toList_ofList] at h
    · rw [String.toList_ofList]
      exact fun hmem => whole (padded.subset hmem)
    · rw [String.toList_ofList]
      exact Text.trimmed_trimChars cs

/-- What is read from a text are proper names, and the text is a writing of their list. -/
theorem written_names (cs : List Char) :
    Written (names (String.ofList cs)) cs ∧ ∀ q ∈ names (String.ofList cs), Proper q := by
  induction cs using Text.separator_induction ',' with
  | piece cs whole => exact written_piece whole
  | separated as bs whole ih =>
    obtain ⟨first, hfirst⟩ := written_piece whole
    rw [names_comma]
    refine ⟨.comma first ih.1, ?_⟩
    intro q hq
    rcases List.mem_append.mp hq with hq | hq
    · exact hfirst q hq
    · exact ih.2 q hq

end Settings

end JobQueue
