/-
  Reading JSON values back.

  In memory a whole number has 64 bits and the keys of an object ascend
  (`Fits`); in a text they may come in any order, and more than once.  A value
  that fits and has no doubles is read from its tokens, with any blanks between
  them, if it is not nested deeper than texts may be (`decode_of_spaced`).
  Numbers are why it matters what stands behind a value: they end only where a
  blank, a comma or a closing bracket follows, or nothing at all (`Delimits`).
-/
import JobQueue.Json.Value
import JobQueue.Proofs.Json.Skip

namespace JobQueue.Json

/-! ## Parts of values -/

/-- The values that stand in a list or an object. -/
def parts : Json → List Json
  | .array vs => vs
  | .object ms => ms.map Prod.snd
  | _ => []

/-- A value and all that stands in it have a property. -/
inductive Throughout (p : Json → Prop) : Json → Prop where
  | intro {v : Json} (self : p v) (inside : ∀ w ∈ v.parts, Throughout p w) : Throughout p v

/-- A whole number has 64 bits, with or without a sign; the keys of an object ascend. -/
def Fits : Json → Prop
  | .integer n => -0x8000000000000000 ≤ n ∧ n ≤ 0xffffffffffffffff
  | .object ms => (ms.map Prod.fst).Pairwise (· < ·)
  | _ => True

def IsReal : Json → Prop
  | .real _ => True
  | _ => False

mutual

/-- How many lists and objects stand in each other. -/
def depth : Json → ℕ
  | .array vs => depthOfItems vs + 1
  | .object ms => depthOfMembers ms + 1
  | _ => 0

/-- The depth of the deepest item. -/
def depthOfItems : List Json → ℕ
  | [] => 0
  | v :: vs => max (depth v) (depthOfItems vs)

/-- The depth of the deepest member. -/
def depthOfMembers : List (String × Json) → ℕ
  | [] => 0
  | (_, v) :: ms => max (depth v) (depthOfMembers ms)

end

variable {v : Json} {vs : List Json} {ms : List (String × Json)} {n : ℕ}

theorem depthOfItems_le_iff : depthOfItems vs ≤ n ↔ ∀ v ∈ vs, v.depth ≤ n := by
  induction vs with
  | nil => simp [depthOfItems]
  | cons v vs ih => simp [depthOfItems, ih]

theorem depthOfMembers_le_iff : depthOfMembers ms ≤ n ↔ ∀ v ∈ ms.map Prod.snd, v.depth ≤ n := by
  induction ms with
  | nil => simp [depthOfMembers]
  | cons m ms ih => simp only [depthOfMembers, max_le_iff, ih, List.map_cons, List.forall_mem_cons]

/-- A value is one level deeper than what stands in it. -/
theorem depth_le_succ_iff : v.depth ≤ n + 1 ↔ ∀ w ∈ v.parts, w.depth ≤ n := by
  cases v with
  | null | bool | integer | real | string => simp [depth, parts]
  | array vs => exact Nat.add_le_add_iff_right.trans depthOfItems_le_iff
  | object ms => exact Nat.add_le_add_iff_right.trans depthOfMembers_le_iff

/-! ## What stands behind a value -/

/-- Whatever is laid out from the tokens, a number ends before it. -/
def Delimits (tail : Bytes) (ts : List Bytes) : Prop := ∀ s, Spaced tail ts s → Stops s

theorem Closes.delimits {ts : List Bytes} (h : Closes ts) (tail : Bytes) : Delimits tail ts :=
  fun _ hs => hs.stops h

theorem Blanks.delimits {tail : Bytes} (h : Blanks tail) : Delimits tail [] := by
  intro s hs
  cases hs
  intro b hb
  exact .inl (h b (List.mem_of_mem_head? hb))

/-- Tokens in front of others are laid out in front of a text that the others are laid out as. -/
theorem Spaced.split {tail s : Bytes} {ts us : List Bytes} (h : Spaced tail (ts ++ us) s) :
    ∃ s', Spaced tail us s' ∧ Spaced s' ts s := by
  induction ts generalizing s with
  | nil => exact ⟨s, h, .nil⟩
  | cons t ts ih =>
    cases h with
    | cons blanks rest =>
      obtain ⟨s', hs', hs⟩ := ih rest
      exact ⟨s', hs', .cons blanks hs⟩

/-- A value that is read from its tokens, if lists and objects may stand in each other up to a
    depth. -/
def IsRead (depth : ℕ) (v : Json) : Prop :=
  ∀ ⦃tail ts s⦄, Delimits tail ts → Spaced tail (tokens v ++ ts) s →
    ∃ s', Spaced tail ts s' ∧ readValue depth s = .ok (v, s')

theorem IsRead.reads {depth : ℕ} (h : IsRead depth v) : Reads (readValue depth) (tokens v) v :=
  fun tail _ _ hts hs => h (hts.delimits tail) hs

/-! ## Values without parts -/

/-- A value of one token is read if it is read without blanks before it. -/
theorem isRead_of_token {depth : ℕ} {c : UInt8} {r : Bytes} (token : tokens v = [c :: r])
    (hspace : isSpace c = false)
    (read : ∀ s, Stops s → readValue depth (c :: (r ++ s)) = .ok (v, s)) : IsRead depth v := by
  intro tail ts s hts h
  rw [token] at h
  obtain ⟨s', hs, hskip⟩ := Spaced.skipSpace h hspace
  refine ⟨s', hs, ?_⟩
  have hread := read s' (hts s' hs)
  unfold readValue at hread ⊢
  rw [skipSpace, hspace] at hread
  rw [hskip]
  exact hread

theorem isRead_null (depth : ℕ) : IsRead depth .null :=
  isRead_of_token (c := 110) (r := nullTail) (by decide) (by decide) fun s _ => by
    simp [readValue, skipSpace, isSpace, readWord_append, Except.map]

theorem isRead_bool (depth : ℕ) (b : Bool) : IsRead depth (.bool b) := by
  cases b with
  | true =>
    refine isRead_of_token (c := 116) (r := trueTail) (by decide) (by decide) fun s _ => ?_
    simp [readValue, skipSpace, isSpace, readWord_append, Except.map]
  | false =>
    refine isRead_of_token (c := 102) (r := falseTail) (by decide) (by decide) fun s _ => ?_
    simp [readValue, skipSpace, isSpace, readWord_append, Except.map]

theorem isRead_string (depth : ℕ) (t : String) : IsRead depth (.string t) := by
  refine isRead_of_token (c := 34) (r := (textBytes t).flatMap escapeByte ++ [34]) rfl (by decide)
    fun s _ => ?_
  have hbody := Text.readBody_of_spells (Text.spells_flatMap (textBytes t)) s
  simp [readValue, skipSpace, isSpace, hbody, Except.map]

/-- A byte with which numbers begin. -/
theorem Numeral.ne_of_first {b : UInt8} (h : b = 45 ∨ (digit? b).isSome = true) :
    isSpace b = false ∧ b ≠ 34 ∧ b ≠ 91 ∧ b ≠ 93 ∧ b ≠ 102 ∧ b ≠ 110 ∧ b ≠ 116 ∧ b ≠ 123 := by
  rcases h with rfl | h
  · decide
  · obtain ⟨hspace, hquote, -, hrest⟩ := ne_of_digit b h
    exact ⟨hspace, hquote, hrest⟩

theorem isRead_integer (depth : ℕ) {n : ℤ} (fits : Fits (.integer n)) :
    IsRead depth (.integer n) := by
  obtain ⟨b, r, heq, hb⟩ := Numeral.writeInteger_cons n
  obtain ⟨hspace, hquote, hlist, -, hf, hn, ht, hobject⟩ := Numeral.ne_of_first hb
  refine isRead_of_token (c := b) (r := r) (by rw [tokens, Json.write, heq]) hspace fun s hs => ?_
  have hread := Numeral.read_writeInteger fits.1 fits.2 hs
  rw [heq, List.cons_append] at hread
  unfold readValue
  simp [skipSpace, hspace, hquote, hlist, hf, hn, ht, hobject, hb, hread, Numeral.toJson,
    Except.map]

/-- A value without doubles begins with a byte that closes no list. -/
theorem begins_tokens (exact : ¬v.IsReal) : Begins (· ≠ 93) (tokens v) := by
  cases v with
  | null => exact ⟨110, nullTail, [], by decide, by decide, by decide⟩
  | bool b =>
    cases b with
    | true => exact ⟨116, trueTail, [], by decide, by decide, by decide⟩
    | false => exact ⟨102, falseTail, [], by decide, by decide, by decide⟩
  | integer n =>
    obtain ⟨b, r, heq, hb⟩ := Numeral.writeInteger_cons n
    obtain ⟨hspace, -, -, hend, -⟩ := Numeral.ne_of_first hb
    exact ⟨b, r, [], by rw [tokens, Json.write, heq], hspace, hend⟩
  | real => exact absurd trivial exact
  | string t => exact ⟨34, (textBytes t).flatMap escapeByte ++ [34], [], rfl, by decide, by decide⟩
  | array vs => exact ⟨91, [], _, rfl, by decide, by decide⟩
  | object ms => exact ⟨123, [], _, rfl, by decide, by decide⟩

/-! ## Lists and objects -/

theorem isRead_array {depth : ℕ} (exact : ∀ v ∈ vs, ¬v.IsReal) (items : ∀ v ∈ vs, IsRead depth v) :
    IsRead (depth + 1) (.array vs) := by
  intro tail ts s _ h
  obtain ⟨s₁, hs₁, hskip⟩ := Spaced.skipSpace (c := 91) (r := []) h (by decide)
  rw [itemTokens_eq_map] at hs₁
  obtain ⟨s', hs', hread⟩ := reads_readList (fun v hv => begins_tokens (exact v hv))
    (fun v hv => (items v hv).reads) hs₁
  refine ⟨s', hs', ?_⟩
  unfold readValue
  simp [hskip, hread, Except.map]

/-- A member whose key is above all others is put behind them. -/
theorem insertMember_of_lt {key : String} (h : ∀ m ∈ ms, m.1 < key) (v : Json) :
    insertMember key v ms = ms ++ [(key, v)] := by
  induction ms with
  | nil => rfl
  | cons m ms ih =>
    obtain ⟨hlt, hrest⟩ := List.forall_mem_cons.1 h
    rw [insertMember, if_neg hlt.not_gt, if_neg hlt.ne', ih hrest, List.cons_append]

/-- Members are read one after another if their keys ascend. -/
theorem readMembers_of_spaced {value : Reader Json} {before : List (String × Json)} {bound : ℕ}
    {tail s : Bytes} (reads : ∀ m ∈ ms, Reads value (tokens m.2) m.2)
    (ascending : ((before ++ ms).map Prod.fst).Pairwise (· < ·)) (hbound : ms.length < bound)
    (first : Bool) (h : Spaced tail (joined 125 first (memberTokens ms)) s) :
    readMembers (readMember value) bound first before s = .ok (before ++ ms, tail) := by
  induction ms generalizing bound first before s with
  | nil =>
    obtain ⟨bound, rfl⟩ := Nat.exists_eq_add_of_lt hbound
    rw [memberTokens, ← List.append_nil (joined 125 first [])] at h
    obtain ⟨s', hs', hnext, hend⟩ := nextKey_of_closed h
    obtain rfl : s' = tail := by cases hs'; rfl
    simp [readMembers, hnext, hend, Except.map]
  | cons m ms ih =>
    obtain ⟨n, rfl⟩ := Nat.exists_eq_add_one_of_ne_zero (Nat.ne_zero_of_lt hbound)
    obtain ⟨key, v⟩ := m
    obtain ⟨s₁, hs₁, hnext⟩ := nextKey_of_spaced (Text.spells_flatMap (textBytes key)) h
    obtain ⟨s₂, hs₂, hcolon⟩ := colon_of_spaced hs₁
    have hcloses := closes_joined 125 (.inr rfl) (memberTokens ms) []
    rw [List.append_nil] at hcloses
    obtain ⟨s₃, hs₃, hread⟩ := reads _ List.mem_cons_self hcloses hs₂
    have hlast : ∀ m ∈ before, m.1 < key := by
      rw [List.map_append, List.pairwise_append] at ascending
      exact fun m hm => ascending.2.2 _ (List.mem_map_of_mem hm) _ (by simp)
    have hassoc : before ++ (key, v) :: ms = (before ++ [(key, v)]) ++ ms := by simp
    rw [hassoc] at ascending ⊢
    have hrest := ih (fun m hm => reads m (List.mem_cons_of_mem _ hm)) ascending
      (by simpa using hbound) false hs₃
    simp [readMembers, hnext, readMember, hcolon, hread, insertMember_of_lt hlast, hrest]

theorem isRead_object {depth : ℕ} (fits : Fits (.object ms))
    (members : ∀ v ∈ ms.map Prod.snd, IsRead depth v) : IsRead (depth + 1) (.object ms) := by
  intro tail ts s _ h
  obtain ⟨s₁, hs₁, hskip⟩ := Spaced.skipSpace (c := 123) (r := []) h (by decide)
  obtain ⟨s', hs', hmembers⟩ := hs₁.split
  have hbound : ms.length < s₁.length + 1 := by
    have hcount := length_le_joined 125 true (memberTokens ms)
    have hlength := hmembers.length_le
    rw [memberTokens_eq_map, List.length_map, ← memberTokens_eq_map] at hcount
    omega
  have hreads : ∀ m ∈ ms, Reads (readValue depth) (tokens m.2) m.2 :=
    fun m hm => (members m.2 (List.mem_map_of_mem hm)).reads
  have ascending : (([] ++ ms).map Prod.fst).Pairwise (· < ·) := fits
  have hread := readMembers_of_spaced hreads ascending hbound true hmembers
  refine ⟨s', hs', ?_⟩
  unfold readValue
  simp [hskip, hread, Except.map]

/-! ## All values -/

/-- A value without doubles is read from its tokens, if it is not nested deeper than it may be. -/
theorem Throughout.isRead (fits : Throughout Fits v) (exact : Throughout (¬IsReal ·) v) {depth : ℕ}
    (hdepth : v.depth ≤ depth) : IsRead depth v := by
  induction fits generalizing depth with
  | @intro v self _ ih =>
    obtain ⟨hself, hinside⟩ := exact
    have hparts : ∀ n, depth = n + 1 → ∀ w ∈ v.parts, IsRead n w := fun n hn w hw =>
      ih w hw (hinside w hw) (depth_le_succ_iff.1 (hn ▸ hdepth) w hw)
    have hsucc : 0 < v.depth → ∃ n, depth = n + 1 := fun hpos =>
      Nat.exists_eq_add_one_of_ne_zero (hpos.trans_le hdepth).ne'
    cases v with
    | null => exact isRead_null depth
    | bool b => exact isRead_bool depth b
    | integer n => exact isRead_integer depth self
    | real x => exact absurd trivial hself
    | string t => exact isRead_string depth t
    | array vs =>
      obtain ⟨n, rfl⟩ := hsucc (Nat.succ_pos _)
      refine isRead_array (fun w hw => ?_) (hparts n rfl)
      cases hinside w hw with
      | intro self _ => exact self
    | object ms =>
      obtain ⟨n, rfl⟩ := hsucc (Nat.succ_pos _)
      exact isRead_object self (hparts n rfl)

/-- **A value is read back from its tokens**, with any blanks between them and around them. -/
theorem decode_of_spaced (fits : Throughout Fits v) (exact : Throughout (¬IsReal ·) v)
    (hdepth : v.depth ≤ maxDepth) {tail s : Bytes} (blanks : Blanks tail)
    (h : Spaced tail (tokens v) s) : decode s = .ok v := by
  rw [← List.append_nil (tokens v)] at h
  obtain ⟨s', hs', hread⟩ := fits.isRead exact hdepth blanks.delimits h
  obtain rfl : s' = tail := by cases hs'; rfl
  simp [decode, readAll, hread, blanks.expectEnd, Except.map]

/-- A value is read back from the text that it is written as. -/
theorem decode_write (fits : Throughout Fits v) (exact : Throughout (¬IsReal ·) v)
    (hdepth : v.depth ≤ maxDepth) : decode (write v) = .ok v := by
  rw [← flatten_tokens v]
  exact decode_of_spaced fits exact hdepth blanks_nil (Spaced.flatten (tokens v))

end JobQueue.Json
