/-
  Blanks between the tokens of a JSON text.

  A text is laid out from tokens by putting any blanks before each of them
  (`Spaced`), and may end in something else.  Values, and members with their
  keys and colons, are joined by commas into lists and objects (`joined`).  A
  reader that takes some tokens from the front of a text leaves behind a text
  that is laid out from the others.
-/
import JobQueue.Proofs.Json.Text
import JobQueue.Json.Token

namespace JobQueue.Json

/-! ## Blanks -/

/-- Nothing but blanks. -/
def Blanks (s : Bytes) : Prop := ∀ b ∈ s, isSpace b = true

theorem blanks_nil : Blanks [] := nofun

theorem blanks_singleton {b : UInt8} (h : isSpace b = true) : Blanks [b] := by
  simpa [Blanks] using h

theorem Blanks.skipSpace {s : Bytes} (h : Blanks s) (rest : Bytes) :
    skipSpace (s ++ rest) = skipSpace rest := by
  induction s with
  | nil => rfl
  | cons b s ih =>
    rw [List.cons_append, Json.skipSpace, if_pos (h b List.mem_cons_self)]
    exact ih fun c hc => h c (List.mem_cons_of_mem b hc)

theorem Blanks.expectEnd {s : Bytes} (h : Blanks s) : expectEnd s = .ok () := by
  have hskip := h.skipSpace []
  rw [List.append_nil] at hskip
  rw [Json.expectEnd, hskip]
  rfl

/-- The tokens with any blanks before each of them, and `tail` behind them. -/
inductive Spaced (tail : Bytes) : List Bytes → Bytes → Prop where
  | nil : Spaced tail [] tail
  | cons {b t s : Bytes} {ts : List Bytes} (blanks : Blanks b) (rest : Spaced tail ts s) :
      Spaced tail (t :: ts) (b ++ (t ++ s))

/-- The first token is a comma or a closing bracket. -/
def Closes : List Bytes → Prop
  | [] => False
  | t :: _ => t = [44] ∨ t = [93] ∨ t = [125]

/-- Where a number ends: at a blank, a comma or a closing bracket, or at the end of the text. -/
def Stops (s : Bytes) : Prop := ∀ b ∈ s.head?, isSpace b = true ∨ b = 44 ∨ b = 93 ∨ b = 125

namespace Spaced

variable {tail s : Bytes} {t : Bytes} {ts : List Bytes}

/-- Tokens with the same blanks before each of them. -/
theorem flatMap {b : Bytes} (blanks : Blanks b) (tail : Bytes) (ts : List Bytes) :
    Spaced tail ts (ts.flatMap (b ++ ·) ++ tail) := by
  induction ts with
  | nil => exact .nil
  | cons t ts ih => simpa using Spaced.cons (t := t) blanks ih

/-- Tokens without any blanks. -/
theorem flatten (ts : List Bytes) : Spaced [] ts ts.flatten := by
  simpa [List.flatMap_id'] using flatMap (b := []) blanks_nil [] ts

theorem append {ts' : List Bytes} {s' : Bytes} (h : Spaced [] ts s) (h' : Spaced tail ts' s') :
    Spaced tail (ts ++ ts') (s ++ s') := by
  induction h with
  | nil => exact h'
  | cons blanks _ ih =>
    rw [List.append_assoc, List.append_assoc]
    exact .cons blanks ih

/-- A text is not shorter than its tokens. -/
theorem length_le (h : Spaced tail ts s) : ts.flatten.length ≤ s.length := by
  induction h with
  | nil => simp
  | cons blanks _ ih =>
    simp only [List.flatten_cons, List.length_append]
    omega

/-- The first token is found behind the blanks. -/
theorem skipSpace {c : UInt8} {r : Bytes} (h : Spaced tail ((c :: r) :: ts) s)
    (hc : isSpace c = false) :
    ∃ s', Spaced tail ts s' ∧ Json.skipSpace s = c :: (r ++ s') := by
  cases h with
  | @cons b t s' ts blanks rest =>
    refine ⟨s', rest, ?_⟩
    rw [blanks.skipSpace, List.cons_append, Json.skipSpace, hc]
    rfl

/-- The same text without the blanks before its first token. -/
theorem trimmed {c : UInt8} {r : Bytes} (h : Spaced tail ((c :: r) :: ts) s)
    (hc : isSpace c = false) :
    ∃ s', Json.skipSpace s = c :: s' ∧ Spaced tail ((c :: r) :: ts) (c :: s') := by
  obtain ⟨s', hs, hskip⟩ := h.skipSpace hc
  exact ⟨r ++ s', hskip, Spaced.cons (b := []) (t := c :: r) blanks_nil hs⟩

theorem stops (h : Spaced tail ts s) (hts : Closes ts) : Stops s := by
  cases h with
  | nil => cases hts
  | @cons b t s ts blanks rest =>
    cases b with
    | cons b bs =>
      intro c hc
      cases hc
      exact .inl (blanks b List.mem_cons_self)
    | nil =>
      intro c hc
      rcases hts with rfl | rfl | rfl
      · cases hc; exact .inr (.inl rfl)
      · cases hc; exact .inr (.inr (.inl rfl))
      · cases hc; exact .inr (.inr (.inr rfl))

end Spaced

/-! ## Lists and objects -/

/-- The tokens of items and the closing bracket, with commas between them; `first` if nothing
    stands before them. -/
def joined (close : UInt8) : Bool → List (List Bytes) → List Bytes
  | _, [] => [[close]]
  | true, ts :: items => ts ++ joined close false items
  | false, ts :: items => [44] :: (ts ++ joined close false items)

theorem lt_length_joined (close : UInt8) (items : List (List Bytes)) :
    items.length < (joined close false items).flatten.length := by
  induction items with
  | nil => simp [joined]
  | cons ts items ih =>
    simp only [joined, List.flatten_cons, List.flatten_append, List.length_append, List.length_cons]
    omega

theorem length_le_joined (close : UInt8) (first : Bool) (items : List (List Bytes)) :
    items.length ≤ (joined close first items).flatten.length := by
  cases first with
  | false => exact (lt_length_joined close items).le
  | true =>
    cases items with
    | nil => exact Nat.zero_le _
    | cons ts items =>
      have hlt := lt_length_joined close items
      simp only [joined, List.flatten_append, List.length_append, List.length_cons]
      omega

/-- An item is not longer than the list. -/
theorem length_le_of_mem_joined (close : UInt8) (first : Bool) {items : List (List Bytes)}
    {ts : List Bytes} (h : ts ∈ items) :
    ts.flatten.length ≤ (joined close first items).flatten.length := by
  induction items generalizing first with
  | nil => cases h
  | cons us items ih =>
    have hjoined : us.flatten.length + (joined close false items).flatten.length ≤
        (joined close first (us :: items)).flatten.length := by
      cases first <;> simp [joined]
    rcases List.mem_cons.1 h with rfl | h
    · omega
    · have hle := ih false h
      omega

mutual

/-- The tokens of a value. -/
def tokens : Json → List Bytes
  | .null => [write .null]
  | .bool b => [write (.bool b)]
  | .integer n => [write (.integer n)]
  | .real x => [write (.real x)]
  | .string s => [write (.string s)]
  | .array vs => [91] :: joined 93 true (itemTokens vs)
  | .object ms => [123] :: joined 125 true (memberTokens ms)

/-- The tokens of the items of a list. -/
def itemTokens : List Json → List (List Bytes)
  | [] => []
  | v :: vs => tokens v :: itemTokens vs

/-- The tokens of the members of an object, with their keys and colons. -/
def memberTokens : List (String × Json) → List (List Bytes)
  | [] => []
  | (k, v) :: ms => (writeText k :: [58] :: tokens v) :: memberTokens ms

end

theorem itemTokens_eq_map (vs : List Json) : itemTokens vs = vs.map tokens := by
  induction vs with
  | nil => rfl
  | cons v vs ih => rw [itemTokens, ih, List.map_cons]

theorem memberTokens_eq_map (ms : List (String × Json)) :
    memberTokens ms = ms.map fun m => writeText m.1 :: [58] :: tokens m.2 := by
  induction ms with
  | nil => rfl
  | cons m ms ih => rw [memberTokens, ih, List.map_cons]

mutual

/-- A value is written as its tokens, without any blanks. -/
theorem flatten_tokens : ∀ v : Json, (tokens v).flatten = write v
  | .null | .bool _ | .integer _ | .real _ | .string _ => by simp [tokens]
  | .array [] | .object [] => rfl
  | .array (v :: vs) => by
    simp [tokens, itemTokens, joined, write, flatten_tokens v, flatten_itemTokens vs]
  | .object ((k, v) :: ms) => by
    simp [tokens, memberTokens, joined, write, flatten_tokens v, flatten_memberTokens ms]

theorem flatten_itemTokens : ∀ vs : List Json,
    (joined 93 false (itemTokens vs)).flatten = writeItems vs
  | [] => rfl
  | v :: vs => by
    simp [itemTokens, joined, writeItems, flatten_tokens v, flatten_itemTokens vs]

theorem flatten_memberTokens : ∀ ms : List (String × Json),
    (joined 125 false (memberTokens ms)).flatten = writeMembers ms
  | [] => rfl
  | (k, v) :: ms => by
    simp [memberTokens, joined, writeMembers, flatten_tokens v, flatten_memberTokens ms]

end

section
variable {tail s : Bytes} {ts : List Bytes} {items : List (List Bytes)}

theorem closes_joined (close : UInt8) (hclose : close = 93 ∨ close = 125)
    (items : List (List Bytes)) (ts : List Bytes) : Closes (joined close false items ++ ts) := by
  cases items with
  | nil =>
    rcases hclose with rfl | rfl
    · exact .inr (.inl rfl)
    · exact .inr (.inr rfl)
  | cons => exact .inl rfl

theorem colon_of_spaced (h : Spaced tail ([58] :: ts) s) :
    ∃ s', Spaced tail ts s' ∧ colon s = .ok s' := by
  obtain ⟨s', hs, hskip⟩ := h.skipSpace (by decide)
  exact ⟨s', hs, by simp [colon, hskip]⟩

/-- A key is read with the tokens before it. -/
theorem nextKey_of_spaced {first : Bool} {body : Bytes} {key : String}
    (hkey : Text.Spells body (textBytes key))
    (h : Spaced tail (joined 125 first (((34 :: (body ++ [34])) :: ts) :: items)) s) :
    ∃ s', Spaced tail (ts ++ joined 125 false items) s' ∧ nextKey first s = .ok (some (key, s')) := by
  cases first with
  | true =>
    obtain ⟨s', hs, hskip⟩ := h.skipSpace (by decide)
    refine ⟨s', hs, ?_⟩
    simp [nextKey, hskip, Text.readBody_of_spells hkey, Except.map]
  | false =>
    obtain ⟨s₁, hs₁, hcomma⟩ := h.skipSpace (by decide)
    obtain ⟨s', hs, hskip⟩ := hs₁.skipSpace (by decide)
    refine ⟨s', hs, ?_⟩
    simp [nextKey, hcomma, hskip, Text.readBody_of_spells hkey, Except.map]

/-- Behind the last member the object is closed. -/
theorem nextKey_of_closed {first : Bool} (h : Spaced tail (joined 125 first [] ++ ts) s) :
    ∃ s', Spaced tail ts s' ∧ nextKey first s = .ok none ∧ endObject s = .ok s' := by
  have h : Spaced tail ([125] :: ts) s := by cases first <;> exact h
  obtain ⟨s', hs, hskip⟩ := h.skipSpace (by decide)
  exact ⟨s', hs, by simp [nextKey, hskip], by simp [endObject, hskip]⟩

/-- The next item is found behind the tokens before it. -/
theorem nextItem_of_spaced {first : Bool} {c : UInt8} {r : Bytes} {more : List Bytes}
    (hc : isSpace c = false) (hitem : c ≠ 93)
    (h : Spaced tail (joined 93 first (((c :: r) :: ts) :: items) ++ more) s) :
    ∃ s', Spaced tail ((c :: r) :: ts ++ (joined 93 false items ++ more)) s' ∧
      nextItem first s = .ok (some s') := by
  cases first with
  | true =>
    have h : Spaced tail ((c :: r) :: ts ++ (joined 93 false items ++ more)) s := by
      simpa only [joined, List.append_assoc] using h
    obtain ⟨s', hskip, hs⟩ := h.trimmed hc
    exact ⟨_, hs, by simp [nextItem, hskip, hitem]⟩
  | false =>
    have h : Spaced tail ([44] :: ((c :: r) :: ts ++ (joined 93 false items ++ more))) s := by
      simpa only [joined, List.append_assoc, List.cons_append] using h
    obtain ⟨s₁, hs₁, hcomma⟩ := h.skipSpace (by decide)
    obtain ⟨s', hskip, hs⟩ := Spaced.trimmed hs₁ hc
    exact ⟨_, hs, by simp [nextItem, hcomma, hskip, hitem]⟩

/-- Behind the last item the list is closed. -/
theorem nextItem_of_closed {first : Bool} (h : Spaced tail (joined 93 first [] ++ ts) s) :
    ∃ s', Spaced tail ts s' ∧ nextItem first s = .ok none ∧ endList s = .ok s' := by
  have h : Spaced tail ([93] :: ts) s := by cases first <;> exact h
  obtain ⟨s', hs, hskip⟩ := h.skipSpace (by decide)
  exact ⟨s', hs, by simp [nextItem, hskip], by simp [endList, hskip]⟩

end

/-! ## Readers -/

section
variable {α : Type}

/-- The reader takes the tokens from the front of every text that is laid out from them and from
    others behind them that close, and gives `a`. -/
def Reads (read : Reader α) (tokens : List Bytes) (a : α) : Prop :=
  ∀ ⦃tail ts s⦄, Closes ts → Spaced tail (tokens ++ ts) s →
    ∃ s', Spaced tail ts s' ∧ read s = .ok (a, s')

/-- The tokens begin with a byte for which `p` holds, and which is no blank. -/
def Begins (p : UInt8 → Prop) (tokens : List Bytes) : Prop :=
  ∃ c r ts, tokens = (c :: r) :: ts ∧ isSpace c = false ∧ p c

theorem Begins.imp {p q : UInt8 → Prop} {tokens : List Bytes} (h : Begins p tokens)
    (hpq : ∀ c, p c → q c) : Begins q tokens := by
  obtain ⟨c, r, ts, heq, hc, hp⟩ := h
  exact ⟨c, r, ts, heq, hc, hpq c hp⟩

/-- What is made of a value is read as the value is. -/
theorem Reads.map {β : Type} {read : Reader α} {tokens : List Bytes} {a : α}
    (reads : Reads read tokens a) (f : α → β) :
    Reads (fun s => (read s).map fun (a, s) => (f a, s)) tokens (f a) := by
  intro tail ts s hts h
  obtain ⟨s', hs, hread⟩ := reads hts h
  exact ⟨s', hs, by simp only [hread]; rfl⟩

/-- A list is read if each of its items is. -/
theorem reads_readItems {item : Reader α} {tokens : α → List Bytes} {xs : List α} {bound : ℕ}
    {tail s : Bytes} {ts : List Bytes} (starts : ∀ x ∈ xs, Begins (· ≠ 93) (tokens x))
    (reads : ∀ x ∈ xs, Reads item (tokens x) x) (hbound : xs.length < bound) (first : Bool)
    (done : List α) (h : Spaced tail (joined 93 first (xs.map tokens) ++ ts) s) :
    ∃ s', Spaced tail ts s' ∧ readItems item bound first done s = .ok (done.reverse ++ xs, s') := by
  induction xs generalizing bound first done s with
  | nil =>
    obtain ⟨bound, rfl⟩ := Nat.exists_eq_add_of_lt hbound
    obtain ⟨s', hs, hnext, hend⟩ := nextItem_of_closed h
    exact ⟨s', hs, by simp [readItems, hnext, hend, Except.map]⟩
  | cons x xs ih =>
    obtain ⟨n, rfl⟩ := Nat.exists_eq_add_one_of_ne_zero (Nat.ne_zero_of_lt hbound)
    obtain ⟨c, r, more, heq, hc, hitem⟩ := starts x List.mem_cons_self
    rw [List.map_cons, heq] at h
    obtain ⟨s₁, hs₁, hnext⟩ := nextItem_of_spaced hc hitem h
    rw [← heq] at hs₁
    obtain ⟨s₂, hs₂, hread⟩ :=
      reads x List.mem_cons_self (closes_joined 93 (.inl rfl) (xs.map tokens) ts) hs₁
    obtain ⟨s', hs', hrest⟩ := ih (fun y hy => starts y (List.mem_cons_of_mem x hy))
      (fun y hy => reads y (List.mem_cons_of_mem x hy)) (by simpa using hbound) false (x :: done) hs₂
    exact ⟨s', hs', by simp [readItems, hnext, hread, hrest]⟩

theorem reads_readList {item : Reader α} {tokens : α → List Bytes} {xs : List α} {tail s : Bytes}
    {ts : List Bytes} (starts : ∀ x ∈ xs, Begins (· ≠ 93) (tokens x))
    (reads : ∀ x ∈ xs, Reads item (tokens x) x)
    (h : Spaced tail (joined 93 true (xs.map tokens) ++ ts) s) :
    ∃ s', Spaced tail ts s' ∧ readList item s = .ok (xs, s') := by
  have hlength := h.length_le
  have hjoined := length_le_joined 93 true (xs.map tokens)
  rw [List.flatten_append, List.length_append] at hlength
  rw [List.length_map] at hjoined
  exact reads_readItems starts reads (by omega) true [] h

end

end JobQueue.Json
