/-
  The two orders on stored jobs: the one in which they are handed out and the
  one in which they are listed.

  Both are read off a lexicographic key, `place` and `age`, so that they are
  total.  Of a list whose ranks are distinct, `first?` is the one element of
  least place, whatever the order of the list (`first?_eq_some_iff`), and it is
  the head of the sorted list (`head?_inOrder`).

  Ranks matter only through their order.  Two lists with the same jobs, both in
  the order of their ranks, hand out the same job (`map_first?`) and show the
  same listing (`map_newestFirst`), even if the ranks themselves differ.
-/
import JobQueue.Store.Ranked
import Mathlib

namespace JobQueue.Ranked

/-! ## Keys -/

/-- The place of a stored job in the order of being handed out. -/
def place (a : Ranked) : ℤ ×ₗ ℤ ×ₗ ℕ :=
  toLex (-a.job.priority.toInt, toLex (a.job.createdAt.toInt, a.rank))

/-- The place of a stored job in the order of insertion, the oldest first. -/
def age (a : Ranked) : ℤ ×ₗ ℕ := toLex (a.job.createdAt.toInt, a.rank)

theorem isBefore_iff {a b : Ranked} : a.isBefore b = true ↔ a.place < b.place := by
  rw [place, place, Prod.Lex.toLex_lt_toLex, Prod.Lex.toLex_lt_toLex]
  unfold isBefore
  by_cases hp : a.job.priority = b.job.priority
  · by_cases hc : a.job.createdAt = b.job.createdAt
    · simp [hp, hc]
    · simp [hp, hc, Int64.lt_iff_toInt_lt, Int64.toInt_inj]
  · have : a.job.priority.toInt ≠ b.job.priority.toInt := fun h => hp (Int32.toInt_inj.1 h)
    simp [hp, Int32.lt_iff_toInt_lt, this]

theorem isNewer_iff {a b : Ranked} : a.isNewer b = true ↔ b.age ≤ a.age := by
  rw [age, age, Prod.Lex.toLex_le_toLex]
  unfold isNewer
  by_cases hc : a.job.createdAt = b.job.createdAt
  · simp [hc]
  · have : b.job.createdAt.toInt ≠ a.job.createdAt.toInt := fun h => hc (Int64.toInt_inj.1 h).symm
    simp [hc, Int64.lt_iff_toInt_lt, this]

theorem not_isBefore_iff {a b : Ranked} : (!b.isBefore a) = true ↔ a.place ≤ b.place := by
  rw [Bool.not_eq_true', ← not_lt, ← isBefore_iff, Bool.not_eq_true]

theorem rank_eq_of_place {a b : Ranked} (h : a.place = b.place) : a.rank = b.rank := by
  simp only [place, EmbeddingLike.apply_eq_iff_eq, Prod.mk.injEq] at h
  exact h.2.2

/-! ## The first of a list -/

/-- No two elements share a rank. -/
def Distinct (l : List Ranked) : Prop := ∀ a ∈ l, ∀ b ∈ l, a.rank = b.rank → a = b

/-- The list is in the order of its ranks. -/
def Ascending (l : List Ranked) : Prop := l.Pairwise fun a b => a.rank < b.rank

theorem Ascending.distinct {l : List Ranked} (h : Ascending l) : Distinct l := by
  intro a ha b hb
  refine List.Pairwise.forall_of_forall_of_flip (R := fun a b => a.rank = b.rank → a = b)
    (fun _ _ _ => rfl) ?_ ?_ ha hb
  · exact h.imp fun hlt he => by omega
  · exact h.imp fun hlt he => by omega

theorem Distinct.map {l : List Ranked} (h : Distinct l) {f : Ranked → Ranked}
    (hf : ∀ x, (f x).rank = x.rank) : Distinct (l.map f) := by
  intro a ha b hb hr
  obtain ⟨x, hx, rfl⟩ := List.mem_map.1 ha
  obtain ⟨y, hy, rfl⟩ := List.mem_map.1 hb
  rw [hf, hf] at hr
  rw [h x hx y hy hr]

theorem Ascending.filter {l : List Ranked} (h : Ascending l) (p : Ranked → Bool) :
    Ascending (l.filter p) :=
  List.Pairwise.filter p h

theorem first?_eq_none_iff {l : List Ranked} : first? l = none ↔ l = [] := by
  cases l with
  | nil => simp [first?]
  | cons a l =>
    cases h : first? l with
    | none => simp [first?, h]
    | some b => by_cases hb : b.isBefore a = true <;> simp [first?, h, hb]

/-- `first?` picks an element that comes after no other one. -/
theorem first?_spec : ∀ {l : List Ranked} {m : Ranked}, first? l = some m →
    m ∈ l ∧ ∀ x ∈ l, m.place ≤ x.place
  | a :: l, m, hm => by
    cases h : first? l with
    | none =>
      simp only [first?, h, Option.some.injEq] at hm
      rw [first?_eq_none_iff] at h
      subst hm h
      simp
    | some b =>
      obtain ⟨hb, hl⟩ := first?_spec h
      by_cases hba : b.isBefore a = true
      · simp only [first?, h, hba, if_true, Option.some.injEq] at hm
        subst hm
        refine ⟨List.mem_cons_of_mem a hb, fun x hx => ?_⟩
        rcases List.mem_cons.1 hx with rfl | hx
        · exact (isBefore_iff.1 hba).le
        · exact hl x hx
      · simp only [first?, h, hba, if_false, Option.some.injEq, Bool.false_eq_true] at hm
        subst hm
        refine ⟨List.mem_cons_self, fun x hx => ?_⟩
        rcases List.mem_cons.1 hx with rfl | hx
        · exact le_rfl
        · exact (not_lt.1 fun hlt => hba (isBefore_iff.2 hlt)).trans (hl x hx)

theorem first?_mem {l : List Ranked} {m : Ranked} (h : first? l = some m) : m ∈ l :=
  (first?_spec h).1

/-- Of a list with distinct ranks, the one element that comes first. -/
theorem first?_eq_some_iff {l : List Ranked} (hl : Distinct l) {m : Ranked} :
    first? l = some m ↔ m ∈ l ∧ ∀ x ∈ l, m.place ≤ x.place := by
  refine ⟨first?_spec, fun ⟨hm, hle⟩ => ?_⟩
  cases h : first? l with
  | none => rw [first?_eq_none_iff.1 h] at hm; cases hm
  | some b =>
    obtain ⟨hb, hb'⟩ := first?_spec h
    rw [hl b hb m hm (rank_eq_of_place (le_antisymm (hb' m hm) (hle b hb)))]

theorem pairwise_inOrder (l : List Ranked) :
    (l.mergeSort fun a b => !b.isBefore a).Pairwise fun a b => a.place ≤ b.place := by
  have hs : (l.mergeSort fun a b => !b.isBefore a).Pairwise fun a b => (!b.isBefore a) = true := by
    refine List.pairwise_mergeSort (fun a b c hab hbc => ?_) (fun a b => ?_) l
    · exact not_isBefore_iff.2 ((not_isBefore_iff.1 hab).trans (not_isBefore_iff.1 hbc))
    · rcases le_total a.place b.place with h | h
      · rw [not_isBefore_iff.2 h, Bool.true_or]
      · rw [not_isBefore_iff.2 h, Bool.or_true]
  exact hs.imp not_isBefore_iff.1

/-- Sorting a list with distinct ranks puts its first element in front. -/
theorem head?_inOrder {l : List Ranked} (hl : Distinct l) :
    (l.mergeSort fun a b => !b.isBefore a).head? = first? l := by
  have hp := l.mergeSort_perm fun a b => !b.isBefore a
  have hs := pairwise_inOrder l
  cases h : l.mergeSort fun a b => !b.isBefore a with
  | nil =>
    rw [h] at hp
    rw [hp.symm.eq_nil]; rfl
  | cons a t =>
    rw [h] at hp hs
    refine ((first?_eq_some_iff hl).2 ⟨hp.subset List.mem_cons_self, fun x hx => ?_⟩).symm
    rcases List.mem_cons.1 (hp.symm.subset hx) with rfl | hx
    · exact le_rfl
    · exact List.rel_of_pairwise_cons hs hx

/-! ## Lists with the same jobs -/

/-- Lists with the same jobs that are both in the order of their ranks hand out the same job. -/
theorem map_first? : ∀ {l l' : List Ranked}, l.map (·.job) = l'.map (·.job) → Ascending l →
    Ascending l' → (first? l).map (·.job) = (first? l').map (·.job)
  | [], [], _, _, _ => rfl
  | [], _ :: _, h, _, _ | _ :: _, [], h, _, _ => by simp at h
  | a :: l, a' :: l', h, hl, hl' => by
    simp only [List.map_cons, List.cons.injEq] at h
    obtain ⟨ha, hl⟩ := List.pairwise_cons.1 hl
    obtain ⟨ha', hl'⟩ := List.pairwise_cons.1 hl'
    have ih := map_first? h.2 hl hl'
    cases hb : first? l with
    | none =>
      rw [hb, Option.map_none, eq_comm, Option.map_eq_none_iff] at ih
      simp [first?, hb, ih, h.1]
    | some b =>
      rw [hb, Option.map_some, eq_comm, Option.map_eq_some_iff] at ih
      obtain ⟨b', hb', hj⟩ := ih
      -- behind `a` the ranks are higher, so only priority and age can put `b` before it
      have hr := ha b (first?_mem hb)
      have hr' := ha' b' (first?_mem hb')
      have : b.isBefore a = b'.isBefore a' := by
        simp [isBefore, h.1, hj, hr.not_gt, hr'.not_gt]
      by_cases hba : b'.isBefore a' = true <;> simp [first?, hb, hb', this, hba, h.1, hj]

theorem pairwise_zip : ∀ {l l' : List Ranked}, Ascending l → Ascending l' →
    (l.zip l').Pairwise fun p q => p.1.rank < q.1.rank ∧ p.2.rank < q.2.rank
  | [], _, _, _ | _ :: _, [], _, _ => by simp
  | a :: l, a' :: l', hl, hl' => by
    obtain ⟨ha, hl⟩ := List.pairwise_cons.1 hl
    obtain ⟨ha', hl'⟩ := List.pairwise_cons.1 hl'
    refine List.pairwise_cons.2 ⟨fun q hq => ?_, pairwise_zip hl hl'⟩
    obtain ⟨h, h'⟩ := List.of_mem_zip (a := q.1) (b := q.2) hq
    exact ⟨ha _ h, ha' _ h'⟩

/-- Ranks that grow along two lists compare alike in both. -/
theorem rank_zip {l l' : List Ranked} (hl : Ascending l) (hl' : Ascending l') {p q : Ranked × Ranked}
    (hp : p ∈ l.zip l') (hq : q ∈ l.zip l') : p.1.rank ≤ q.1.rank ↔ p.2.rank ≤ q.2.rank := by
  refine List.Pairwise.forall_of_forall_of_flip
    (R := fun p q : Ranked × Ranked => p.1.rank ≤ q.1.rank ↔ p.2.rank ≤ q.2.rank)
    (fun p _ => by simp) ?_ ?_ hp hq
  · exact (pairwise_zip hl hl').imp fun h => by omega
  · exact (pairwise_zip hl hl').imp fun h => by simp only [flip]; omega

/-- Lists with the same jobs that are both in the order of their ranks are listed alike. -/
theorem map_newestFirst {l l' : List Ranked} (h : l.map (·.job) = l'.map (·.job))
    (hl : Ascending l) (hl' : Ascending l') :
    (newestFirst l).map (·.job) = (newestFirst l').map (·.job) := by
  have hlen : l.length = l'.length := by simpa using congrArg List.length h
  have hjob : ∀ p ∈ l.zip l', p.1.job = p.2.job := by
    intro p hp
    obtain ⟨i, hi, rfl⟩ := List.mem_iff_getElem.1 hp
    have hi' : i < l.length ∧ i < l'.length := by simpa using hi
    have := List.getElem_of_eq h (i := i) (by simpa using hi'.1)
    simpa using this
  have hnew : ∀ p ∈ l.zip l', ∀ q ∈ l.zip l', p.1.isNewer q.1 = p.2.isNewer q.2 := by
    intro p hp q hq
    simp only [isNewer, hjob p hp, hjob q hq, rank_zip hl hl' hq hp]
  -- both lists are sorted by sorting the list of their pairs
  have h₁ := List.map_mergeSort (r := fun p q : Ranked × Ranked => p.1.isNewer q.1)
    (s := isNewer) (f := Prod.fst) (l := l.zip l') fun _ _ _ _ => rfl
  have h₂ := List.map_mergeSort (r := fun p q : Ranked × Ranked => p.1.isNewer q.1)
    (s := isNewer) (f := Prod.snd) (l := l.zip l') hnew
  rw [List.map_fst_zip hlen.le] at h₁
  rw [List.map_snd_zip hlen.ge] at h₂
  rw [newestFirst, newestFirst, ← h₁, ← h₂, List.map_map, List.map_map]
  exact List.map_congr_left fun p hp => hjob p (List.mem_mergeSort.1 hp)

end JobQueue.Ranked
