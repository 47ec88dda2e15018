/-
  What is read from JSON texts.

  Whatever the text, the value that is read from it fits into memory: its whole
  numbers have 64 bits, and the keys of its objects ascend although they may
  come in any order and more than once.  It is not nested deeper than texts may
  be (`fits_of_decode`).  So what was read without doubles can be written and
  read again.
-/
import JobQueue.Proofs.Json.Value
import JobQueue.Proofs.Number.Literal

namespace JobQueue.Json

/-! ## Numbers -/

namespace Numeral

/-- A whole number has 64 bits. -/
def Fits : Numeral → Prop
  | whole n => -0x8000000000000000 ≤ n ∧ n ≤ 0xffffffffffffffff
  | real _ => True

/-- Nothing but doubles comes out of a reading. -/
def GivesReal (r : Except Fault (Numeral × Bytes)) : Prop := ∀ n s, r = .ok (n, s) → ∃ x, n = .real x

variable {negative : Bool} {digits : ℕ} {exponent : ℤ} {s : Bytes}

theorem GivesReal.fits {r : Except Fault (Numeral × Bytes)} (h : GivesReal r) {n : Numeral}
    (hr : r = .ok (n, s)) : n.Fits := by
  obtain ⟨x, rfl⟩ := h n s hr
  trivial

theorem takeDigits_le {value : ℕ} (h : value ≤ maxWord) (count : ℕ) (s : Bytes) :
    (takeDigits value count s).1 ≤ maxWord := by
  induction s generalizing value count with
  | nil => exact h
  | cons b s ih =>
    rw [takeDigits]
    split
    · exact h
    · split
      · next hle => exact ih hle (count + 1)
      · exact h

theorem givesReal_error (f : Fault) : GivesReal (.error f) := nofun

theorem givesReal_ok (x : Float) (s : Bytes) : GivesReal (.ok (.real x, s)) := by
  rintro n s' h
  cases h
  exact ⟨x, rfl⟩

theorem givesReal_ofParts : GivesReal (ofParts negative digits exponent s) := by
  unfold ofParts
  split
  · exact givesReal_error _
  · exact givesReal_ok _ _

theorem givesReal_readExponent : GivesReal (readExponent negative digits exponent s) := by
  unfold readExponent
  split
  split
  · exact givesReal_error _
  · split
    · exact givesReal_error _
    · split
      · exact givesReal_ofParts
      · split
        · exact givesReal_error _
        · exact givesReal_ok _ _

theorem givesReal_readScaled : GivesReal (readScaled negative digits exponent s) := by
  unfold readScaled
  split
  · exact givesReal_readExponent
  · exact givesReal_readExponent
  · exact givesReal_ofParts

theorem givesReal_readFraction (count : ℕ) : GivesReal (readFraction negative digits count s) := by
  unfold readFraction
  split
  split
  · exact givesReal_readScaled
  · split
    · exact givesReal_error _
    · exact givesReal_readScaled

theorem fits_of_readTail (hle : digits ≤ maxWord) {n : Numeral} {s' : Bytes}
    (h : readTail negative digits s = .ok (n, s')) : n.Fits := by
  unfold readTail at h
  split at h
  · exact (givesReal_readFraction 0).fits h
  · exact givesReal_readExponent.fits h
  · exact givesReal_readExponent.fits h
  · have hword : digits ≤ 0xffffffffffffffff := hle
    split at h
    · split at h
      · cases h
        trivial
      · cases h
        exact ⟨by omega, by omega⟩
    · cases h
      exact ⟨by omega, by omega⟩

theorem fits_of_readUnsigned {n : Numeral} {s' : Bytes}
    (h : readUnsigned negative s = .ok (n, s')) : n.Fits := by
  unfold readUnsigned at h
  split at h
  · cases h
  · split at h
    · cases h
    · exact fits_of_readTail (Nat.zero_le _) h
  · next b s _ =>
    split at h
    · cases h
    · next d hd =>
      have hdigit : d ≤ maxWord := by
        unfold digit? at hd
        split at hd
        · cases hd
          have := b.toNat_lt
          exact (Nat.sub_le _ _).trans (by unfold maxWord; omega)
        · cases hd
      have hle := takeDigits_le hdigit 0 s
      split at h
      next digits _ r htake =>
        rw [htake] at hle
        split at h
        · split at h
          split at h
          · exact (givesReal_readFraction _).fits h
          · exact givesReal_readScaled.fits h
        · exact fits_of_readTail hle h

/-- A whole number that is read has 64 bits. -/
theorem fits_of_read {n : Numeral} {s' : Bytes} (h : read s = .ok (n, s')) : n.Fits := by
  unfold read at h
  split at h <;> exact fits_of_readUnsigned h

end Numeral

/-! ## Lists and objects -/

/-- What holds of each item that is read holds of all items of a list. -/
theorem forall_of_readItems {α : Type} {p : α → Prop} {item : Reader α} {bound : ℕ} {first : Bool}
    {before xs : List α} {s s' : Bytes} (items : ∀ r x r', item r = .ok (x, r') → p x)
    (hbefore : ∀ x ∈ before, p x) (h : readItems item bound first before s = .ok (xs, s')) :
    ∀ x ∈ xs, p x := by
  induction bound generalizing first before s with
  | zero => cases h
  | succ bound ih =>
    rw [readItems] at h
    split at h
    · cases h
    · obtain ⟨rest, -, heq⟩ := map_eq_ok_iff.1 h
      cases heq
      simpa using hbefore
    · next r _ =>
      split at h
      · cases h
      · next x r' hitem =>
        exact ih (List.forall_mem_cons.2 ⟨items r x r' hitem, hbefore⟩) h

/-- What every member keeps holds at the end of an object. -/
theorem of_readMembers {σ : Type} {P : σ → Prop} {member : String → σ → Reader σ} {bound : ℕ}
    {first : Bool} {state state' : σ} {s s' : Bytes}
    (keeps : ∀ key a r a' r', P a → member key a r = .ok (a', r') → P a') (hstate : P state)
    (h : readMembers member bound first state s = .ok (state', s')) : P state' := by
  induction bound generalizing first state s with
  | zero => cases h
  | succ bound ih =>
    rw [readMembers] at h
    split at h
    · cases h
    · obtain ⟨rest, -, heq⟩ := map_eq_ok_iff.1 h
      cases heq
      exact hstate
    · next key r _ =>
      split at h
      · cases h
      · next a r' hmember => exact ih (keeps key state r a r' hstate hmember) h

theorem mem_insertMember {key : String} {v : Json} {ms : List (String × Json)} {m : String × Json}
    (h : m ∈ insertMember key v ms) : m = (key, v) ∨ m ∈ ms := by
  induction ms with
  | nil => exact .inl (List.mem_singleton.1 h)
  | cons m' ms ih =>
    rw [insertMember] at h
    split_ifs at h
    · exact List.mem_cons.1 h
    · exact (List.mem_cons.1 h).imp_right (List.mem_cons_of_mem m')
    · rcases List.mem_cons.1 h with rfl | h
      · exact .inr List.mem_cons_self
      · exact (ih h).imp_right (List.mem_cons_of_mem m')

/-- The keys of an object go on ascending when a member is added. -/
theorem ascending_insertMember (key : String) (v : Json) {ms : List (String × Json)}
    (h : (ms.map Prod.fst).Pairwise (· < ·)) :
    ((insertMember key v ms).map Prod.fst).Pairwise (· < ·) := by
  induction ms with
  | nil => exact List.pairwise_singleton _ _
  | cons m ms ih =>
    have hkeys := h
    rw [List.map_cons, List.pairwise_cons] at hkeys
    obtain ⟨hfirst, hrest⟩ := hkeys
    rw [insertMember]
    split_ifs with hlt heq
    · refine List.pairwise_cons.2 ⟨fun k hk => ?_, h⟩
      rcases List.mem_cons.1 hk with rfl | hk
      · exact hlt
      · exact hlt.trans (hfirst k hk)
    · exact List.pairwise_cons.2 ⟨fun k hk => heq ▸ hfirst k hk, hrest⟩
    · refine List.pairwise_cons.2 ⟨fun k hk => ?_, ih hrest⟩
      obtain ⟨m', hm', rfl⟩ := List.mem_map.1 hk
      rcases mem_insertMember hm' with rfl | hm'
      · exact lt_of_le_of_ne (not_lt.1 hlt) (Ne.symm heq)
      · exact hfirst _ (List.mem_map_of_mem hm')

/-- The keys ascend, and what holds of each value that is read holds of all members. -/
theorem sound_readMember {p : Json → Prop} {value : Reader Json} {key : String}
    {ms ms' : List (String × Json)} {s s' : Bytes} (values : ∀ r v r', value r = .ok (v, r') → p v)
    (hms : Fits (.object ms) ∧ ∀ m ∈ ms, p m.2)
    (h : readMember value key ms s = .ok (ms', s')) : Fits (.object ms') ∧ ∀ m ∈ ms', p m.2 := by
  unfold readMember at h
  split at h
  · cases h
  · next r _ =>
    split at h
    · cases h
    · next v r' hv =>
      cases h
      refine ⟨ascending_insertMember key v hms.1, fun m hm => ?_⟩
      rcases mem_insertMember hm with rfl | hm
      · exact values r v _ hv
      · exact hms.2 m hm

/-! ## Values -/

/-- What can be read as a value: the reading of what stands in a list or an object is one level
    less deep. -/
inductive Outcome (depth : ℕ) : Json → Prop where
  | null : Outcome depth .null
  | bool (b : Bool) : Outcome depth (.bool b)
  | string (t : String) : Outcome depth (.string t)
  | number {n : Numeral} {s s' : Bytes} (h : Numeral.read s = .ok (n, s')) : Outcome depth n.toJson
  | array {d : ℕ} {vs : List Json} {s s' : Bytes} (below : depth = d + 1)
      (h : readList (readValue d) s = .ok (vs, s')) : Outcome depth (.array vs)
  | object {d bound : ℕ} {ms : List (String × Json)} {s s' : Bytes} (below : depth = d + 1)
      (h : readMembers (readMember (readValue d)) bound true [] s = .ok (ms, s')) :
      Outcome depth (.object ms)

theorem outcome_of_readValue {depth : ℕ} {v : Json} {s s' : Bytes}
    (h : readValue depth s = .ok (v, s')) : Outcome depth v := by
  unfold readValue at h
  split at h
  · cases h
  · split_ifs at h
    · obtain ⟨_, -, heq⟩ := map_eq_ok_iff.1 h
      cases heq
      exact .null
    · obtain ⟨_, -, heq⟩ := map_eq_ok_iff.1 h
      cases heq
      exact .bool true
    · obtain ⟨_, -, heq⟩ := map_eq_ok_iff.1 h
      cases heq
      exact .bool false
    · obtain ⟨_, -, heq⟩ := map_eq_ok_iff.1 h
      cases heq
      exact .string _
    · split at h
      · cases h
      · obtain ⟨_, hlist, heq⟩ := map_eq_ok_iff.1 h
        cases heq
        exact .array rfl hlist
    · split at h
      · cases h
      · obtain ⟨_, hmembers, heq⟩ := map_eq_ok_iff.1 h
        cases heq
        exact .object rfl hmembers
    · obtain ⟨_, hnumber, heq⟩ := map_eq_ok_iff.1 h
      cases heq
      exact .number hnumber

/-- What is read fits, and is not nested deeper than it may be. -/
theorem fits_of_readValue {depth : ℕ} {v : Json} {s s' : Bytes}
    (h : readValue depth s = .ok (v, s')) : Throughout Fits v ∧ v.depth ≤ depth := by
  induction depth using Nat.strong_induction_on generalizing v s s' with
  | _ depth ih =>
    cases outcome_of_readValue h with
    | null | bool | string => exact ⟨⟨trivial, nofun⟩, Nat.zero_le _⟩
    | @number n _ _ hn =>
      cases n with
      | whole n => exact ⟨⟨Numeral.fits_of_read hn, nofun⟩, Nat.zero_le _⟩
      | real x => exact ⟨⟨trivial, nofun⟩, Nat.zero_le _⟩
    | @array d vs _ _ below hlist =>
      subst below
      have hparts : ∀ v ∈ vs, Throughout Fits v ∧ v.depth ≤ d :=
        forall_of_readItems (fun _ _ _ hv => ih d (Nat.lt_succ_self d) hv)
          (List.forall_mem_nil _) hlist
      exact ⟨⟨trivial, fun w hw => (hparts w hw).1⟩,
        depth_le_succ_iff.2 fun w hw => (hparts w hw).2⟩
    | @object d _ ms _ _ below hmembers =>
      subst below
      have hnone : Fits (.object []) := List.Pairwise.nil
      obtain ⟨hkeys, hparts⟩ := of_readMembers
        (fun _ _ _ _ _ => sound_readMember fun _ _ _ hv => ih d (Nat.lt_succ_self d) hv)
        ⟨hnone, List.forall_mem_nil _⟩ hmembers
      exact ⟨⟨hkeys, List.forall_mem_map.2 fun m hm => (hparts m hm).1⟩,
        depth_le_succ_iff.2 (List.forall_mem_map.2 fun m hm => (hparts m hm).2)⟩

/-- **What a text is decoded to fits**, and is not nested deeper than texts may be. -/
theorem fits_of_decode {v : Json} {s : Bytes} (h : decode s = .ok v) :
    Throughout Fits v ∧ v.depth ≤ maxDepth := by
  unfold decode readAll at h
  split at h
  · cases h
  · next hread =>
    obtain ⟨_, -, heq⟩ := map_eq_ok_iff.1 h
    cases heq
    exact fits_of_readValue hread

end JobQueue.Json
