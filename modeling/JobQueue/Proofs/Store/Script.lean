/-
  What is found in the scripts.

  Taking a script apart gives its statements back if no semicolon stands in a
  comment or in a statement, every comment ends its line, and no line of a
  statement is empty or looks like a comment (`Script.Part.Sound`).  The scripts
  of both engines are of this kind, so they are found to be what `Migration.script`
  says (`Migration.run_statements`).
-/
import JobQueue.Proofs.Store.Keyed
import JobQueue.Proofs.Text.Blank
import JobQueue.Store.Script

namespace JobQueue

namespace Text

variable {cs line : List Char}

/-- A line at the front is the first of the lines. -/
theorem lines_append (feed : '\n' ∉ line) (return_ : '\r' ∉ line) (rest : List Char) :
    lines (line ++ '\n' :: rest) = line :: lines rest := by
  obtain ⟨p, ps, hps⟩ := List.exists_cons_of_ne_nil (splitChars_ne_nil '\n' rest)
  have hlast : line.getLast? ≠ some '\r' := fun h => return_ (List.mem_of_getLast? h)
  rw [lines, lines, splitChars_append, splitChars_of_notMem feed, hps, List.singleton_append, linesOf,
    if_neg hlast]
  exact List.cons_ne_nil p ps

/-- Lines that are not empty are the pieces between the line feeds. -/
theorem lines_eq_splitChars (return_ : '\r' ∉ cs) (full : ∀ line ∈ splitChars '\n' cs, line ≠ []) :
    lines cs = splitChars '\n' cs := by
  induction cs using separator_induction '\n' with
  | piece cs feed =>
    rw [splitChars_of_notMem feed] at full
    rw [lines, splitChars_of_notMem feed, linesOf, if_neg (by simpa using full)]
  | separated line rest feed ih =>
    rw [splitChars_append, splitChars_of_notMem feed] at full ⊢
    simp only [List.mem_append, List.mem_cons, not_or] at return_
    rw [lines_append feed return_.1, ih return_.2.2 fun p hp => full p (List.mem_append_right _ hp),
      List.singleton_append]

theorem intercalate_splitChars (sep : Char) (cs : List Char) :
    [sep].intercalate (splitChars sep cs) = cs := by
  induction cs using separator_induction sep with
  | piece cs h => rw [splitChars_of_notMem h, List.intercalate_singleton]
  | separated as bs h ih =>
    rw [splitChars_append, splitChars_of_notMem h, List.singleton_append,
      List.intercalate_cons_of_ne_nil (splitChars_ne_nil sep bs), ih]
    simp

/-- Blank characters at the front make no difference. -/
theorem trimChars_append (blank : ∀ c ∈ line, isBlank c) (cs : List Char) :
    trimChars (line ++ cs) = trimChars cs := by
  rw [trimChars_eq_rdropWhile, List.dropWhile_append_of_pos blank, ← trimChars_eq_rdropWhile]

end Text

namespace Script

open Text

/-! ## Statements and remarks -/

/-- Lines that are blank or comments. -/
def IsRemark (cs : List Char) : Prop :=
  ';' ∉ cs ∧ '\r' ∉ cs ∧ (splitChars '\n' cs).getLast? = some [] ∧
    ∀ line ∈ splitChars '\n' cs, line.all isBlank ∨ isComment line

/-- A text without blank characters at its ends, and without empty lines and comments. -/
def IsStatement (cs : List Char) : Prop :=
  ';' ∉ cs ∧ '\r' ∉ cs ∧ trimChars cs = cs ∧ ∀ line ∈ splitChars '\n' cs, line ≠ [] ∧ ¬isComment line

instance (cs : List Char) : Decidable (IsRemark cs) := inferInstanceAs (Decidable (_ ∧ _))

instance (cs : List Char) : Decidable (IsStatement cs) := inferInstanceAs (Decidable (_ ∧ _))

/-- A statement that can be taken out of its script. -/
structure Part.Sound (p : Part) : Prop where
  remark : IsRemark p.remark.toList
  statement : IsStatement p.text.toList

/-- Cleaning drops a line that is blank or a comment. -/
theorem clean_append {line : List Char} (feed : '\n' ∉ line) (return_ : '\r' ∉ line)
    (idle : line.all isBlank ∨ isComment line) (rest : List Char) :
    clean (line ++ '\n' :: rest) = clean rest := by
  rw [clean, lines_append feed return_, List.filter_cons, clean]
  by_cases comment : isComment line
  · rw [if_neg (by simpa using comment)]
  · have blank := List.all_eq_true.mp (idle.resolve_right comment)
    rw [if_pos (by simpa using comment)]
    by_cases hnil : (lines rest).filter (fun line => !isComment line) = []
    · rw [hnil, List.intercalate_singleton, trimChars_eq_nil_iff.mpr blank]
      rfl
    · have feedBlank : ∀ c ∈ ['\n'], isBlank c := by simp [isBlank]
      rw [List.intercalate_cons_of_ne_nil hnil, List.append_assoc, trimChars_append blank,
        trimChars_append feedBlank]

/-- Remarks go, whatever stands behind them. -/
theorem clean_of_remark {remark : List Char} (h : IsRemark remark) (rest : List Char) :
    clean (remark ++ rest) = clean rest := by
  obtain ⟨-, return_, last, idle⟩ := h
  induction remark using separator_induction '\n' with
  | piece line feed =>
    rw [splitChars_of_notMem feed] at last
    cases last
    rfl
  | separated line remark feed ih =>
    rw [splitChars_append, splitChars_of_notMem feed] at last idle
    simp only [List.mem_append, List.mem_cons, not_or] at return_
    rw [List.getLast?_append_of_ne_nil _ (splitChars_ne_nil '\n' remark)] at last
    rw [List.append_assoc, List.cons_append,
      clean_append feed return_.1 (idle line (List.mem_append_left _ (List.mem_singleton_self line))),
      ih return_.2.2 last fun p hp => idle p (List.mem_append_right _ hp)]

/-- Statements stay as they are. -/
theorem clean_of_statement {cs : List Char} (h : IsStatement cs) : clean cs = cs := by
  obtain ⟨-, return_, trimmed, kept⟩ := h
  have hlines := lines_eq_splitChars return_ fun line hline => (kept line hline).1
  have hall : (splitChars '\n' cs).filter (fun line => !isComment line) = splitChars '\n' cs :=
    List.filter_eq_self.mpr fun line hline => by simpa using (kept line hline).2
  rw [clean, hlines, hall, intercalate_splitChars, trimmed]

theorem IsStatement.ne_nil {cs : List Char} (h : IsStatement cs) : cs ≠ [] := by
  rintro rfl
  exact (h.2.2.2 [] (by simp [splitChars])).1 rfl

/-- What is behind the last semicolon. -/
theorem clean_end : clean ['\n'] = [] := @clean_append [] nofun nofun (.inl rfl) []

/-! ## Scripts -/

variable {parts : List Part}

theorem splitChars_parts (sound : ∀ p ∈ parts, p.Sound) (rest : List Char) :
    splitChars ';' ((parts.flatMap fun p => p.remark.toList ++ p.text.toList ++ [';']) ++ rest) =
      (parts.map fun p => p.remark.toList ++ p.text.toList) ++ splitChars ';' rest := by
  induction parts with
  | nil => rfl
  | cons p parts ih =>
    obtain ⟨hp, hparts⟩ := List.forall_mem_cons.mp sound
    have hnot : ';' ∉ p.remark.toList ++ p.text.toList := by
      simp [hp.remark.1, hp.statement.1]
    rw [List.flatMap_cons, List.append_assoc, List.append_assoc _ [';'], List.singleton_append,
      splitChars_append, splitChars_of_notMem hnot, ih hparts]
    rfl

/-- **The statements of a script are found.** -/
theorem statements_of_sound (sound : ∀ p ∈ parts, p.Sound) :
    statements (String.join (parts.map fun p => p.remark ++ p.text ++ ";") ++ "\n") =
      parts.map (·.text) := by
  have hchars : (String.join (parts.map fun p => p.remark ++ p.text ++ ";") ++ "\n").toList =
      (parts.flatMap fun p => p.remark.toList ++ p.text.toList ++ [';']) ++ ['\n'] := by
    simp [String.toList_join, List.flatMap_map]
  have hclean : ∀ p ∈ parts,
      (clean ∘ fun p => p.remark.toList ++ p.text.toList) p = p.text.toList := fun p hp => by
    rw [Function.comp_apply, clean_of_remark (sound p hp).remark,
      clean_of_statement (sound p hp).statement]
  have hfull : ∀ cs ∈ parts.map fun p => p.text.toList, (!cs.isEmpty) = true := by
    intro cs hcs
    obtain ⟨p, hp, rfl⟩ := List.mem_map.mp hcs
    simpa using (sound p hp).statement.ne_nil
  have hend : splitChars ';' ['\n'] = [['\n']] := by decide
  rw [statements, hchars, splitChars_parts sound, hend, List.map_append, List.map_map,
    List.map_congr_left hclean, List.map_singleton, clean_end, List.filter_append,
    List.filter_eq_self.mpr hfull]
  simp

/-- A semicolon in a comment breaks the statement behind it. -/
example : statements "-- a; b\nc;\n" = ["b\nc"] := by cbv

/-! ## The scripts of the migrations -/

/-- A text can be examined as a list of characters. -/
theorem Part.sound_of_chars {remark text : List Char} {meaning : SchemeStatement}
    (hremark : IsRemark remark) (htext : IsStatement text) :
    Part.Sound ⟨String.ofList remark, String.ofList text, meaning⟩ :=
  ⟨by simpa using hremark, by simpa using htext⟩

end Script

namespace Migration

open Script

set_option maxRecDepth 20000 in
theorem sound_fileJobs : ∀ p ∈ fileJobs, p.Sound := by
  unfold fileJobs
  refine List.forall_mem_cons.mpr ⟨?_, List.forall_mem_cons.mpr ⟨?_, List.forall_mem_cons.mpr ⟨?_,
    List.forall_mem_cons.mpr ⟨?_, List.forall_mem_cons.mpr ⟨?_, List.forall_mem_cons.mpr ⟨?_,
      nofun⟩⟩⟩⟩⟩⟩ <;>
    exact Part.sound_of_chars (by decide +kernel) (by decide +kernel)

set_option maxRecDepth 20000 in
theorem sound_fileLimits : ∀ p ∈ fileLimits, p.Sound := by
  unfold fileLimits
  refine List.forall_mem_cons.mpr ⟨?_, List.forall_mem_cons.mpr ⟨?_, nofun⟩⟩ <;>
    exact Part.sound_of_chars (by decide +kernel) (by decide +kernel)

set_option maxRecDepth 20000 in
theorem sound_serverJobs : ∀ p ∈ serverJobs, p.Sound := by
  unfold serverJobs
  refine List.forall_mem_cons.mpr ⟨?_, List.forall_mem_cons.mpr ⟨?_, List.forall_mem_cons.mpr ⟨?_,
    List.forall_mem_cons.mpr ⟨?_, List.forall_mem_cons.mpr ⟨?_, List.forall_mem_cons.mpr ⟨?_,
      nofun⟩⟩⟩⟩⟩⟩ <;>
    exact Part.sound_of_chars (by decide +kernel) (by decide +kernel)

set_option maxRecDepth 20000 in
theorem sound_serverLimits : ∀ p ∈ serverLimits, p.Sound := by
  unfold serverLimits
  refine List.forall_mem_cons.mpr ⟨?_, List.forall_mem_cons.mpr ⟨?_, nofun⟩⟩ <;>
    exact Part.sound_of_chars (by decide +kernel) (by decide +kernel)

theorem sound_parts (e : Engine) (m : Migration) : ∀ p ∈ m.parts e, p.Sound := by
  cases e with
  | sqlite =>
    dsimp only [parts]
    split
    exacts [sound_fileJobs, sound_fileLimits]
  | postgres =>
    dsimp only [parts]
    split
    exacts [sound_serverJobs, sound_serverLimits]

/-- The statements of a script are those of its parts. -/
theorem statements_text (e : Engine) (m : Migration) :
    statements (m.text e) = (m.parts e).map (·.text) := by
  rw [Migration.text, statements_of_sound (sound_parts e m)]

theorem meaning_parts (e : Engine) {m : Migration} (hm : m ∈ all) :
    (m.parts e).map (·.meaning) = m.script := by
  simp only [all, List.mem_cons, List.not_mem_nil, or_false] at hm
  rcases hm with rfl | rfl <;> cases e <;> rfl

end Migration

/-! ## Statements as texts -/

theorem nodup_of_chars {texts : List String} {chars : List (List Char)}
    (spelled : List.Forall₂ (fun s cs => s = String.ofList cs) texts chars) (h : chars.Nodup) :
    texts.Nodup := by
  have htexts : texts = chars.map String.ofList := by
    induction spelled with
    | nil => rfl
    | cons hs _ ih => rw [List.map_cons, hs, ih h.of_cons]
  rw [htexts]
  exact h.map fun _ _ => String.ofList_injective

set_option maxRecDepth 20000 in
/-- No two statements have the same text. -/
theorem Engine.distinct_vocabulary (e : Engine) : e.vocabulary.Distinct := by
  cases e <;>
    exact nodup_of_chars (.cons rfl (.cons rfl (.cons rfl (.cons rfl (.cons rfl (.cons rfl
      (.cons rfl (.cons rfl .nil)))))))) (by decide +kernel)

/-- A part of a script does what it means. -/
theorem Database.execute_part (e : Engine) {m : Migration} (hm : m ∈ Migration.all)
    {p : Script.Part} (hp : p ∈ m.parts e) (d : Database) :
    d.execute e p.text = d.change e p.meaning := by
  have hmem : (p.text, p.meaning) ∈ e.vocabulary :=
    List.mem_map.mpr ⟨p, List.mem_flatMap.mpr ⟨m, hm, hp⟩, rfl⟩
  rw [execute, Keyed.get?_of_mem e.distinct_vocabulary hmem]

/-- **The statements found in a script do what the script means**, one after another. -/
theorem Migration.run_statements (e : Engine) {m : Migration} (hm : m ∈ all) (d : Database) :
    (Script.statements (m.text e)).foldlM (Database.execute e) d = d.runScript e m.script := by
  have hparts : ∀ ps ⊆ m.parts e, ∀ d : Database, (ps.map (·.text)).foldlM (Database.execute e) d =
      (ps.map (·.meaning)).foldlM (Database.change e) d := by
    intro ps hps
    induction ps with
    | nil => exact fun _ => rfl
    | cons p ps ih =>
      intro d
      obtain ⟨hp, hrest⟩ := List.cons_subset.mp hps
      rw [List.map_cons, List.map_cons, List.foldlM_cons, List.foldlM_cons,
        Database.execute_part e hm hp]
      exact bind_congr fun d => ih hrest d
  rw [statements_text, hparts _ (List.Subset.refl _), meaning_parts e hm, Database.runScript]

end JobQueue
