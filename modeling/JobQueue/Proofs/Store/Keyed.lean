/-
  Maps kept as lists of pairs: what their operations do to look-ups, to the
  keys, and to the values in the order of an enumeration.

  A map is well formed if no key occurs twice (`Distinct`).  In a well-formed
  map the pairs are exactly what look-ups find (`mem_iff_get?`); every
  operation keeps the map well formed, a new key is put behind all others
  (`put_new`), and a key that is there keeps its place (`put_old`).
-/
import JobQueue.Store.Keyed
import Mathlib

namespace JobQueue.Keyed

variable {κ α : Type}

/-- The keys, in the order of an enumeration. -/
def keys (m : Keyed κ α) : List κ := m.map (·.1)

/-- No key occurs twice. -/
def Distinct (m : Keyed κ α) : Prop := m.keys.Nodup

theorem mem_keys {m : Keyed κ α} {k : κ} {a : α} (h : (k, a) ∈ m) : k ∈ m.keys :=
  List.mem_map.2 ⟨(k, a), h, rfl⟩

theorem keys_mapValues (f : α → α) (m : Keyed κ α) : (m.mapValues f).keys = m.keys := by
  simp [keys, mapValues, Function.comp_def]

theorem values_mapValues (f : α → α) (m : Keyed κ α) : (m.mapValues f).values = m.values.map f := by
  simp [values, mapValues, Function.comp_def]

theorem values_keepIf (p : α → Bool) (m : Keyed κ α) :
    (m.keepIf p).values = m.values.filter p := by
  simp [values, keepIf, List.filter_map, Function.comp_def]

theorem Distinct.mapValues {m : Keyed κ α} (h : m.Distinct) (f : α → α) :
    (m.mapValues f).Distinct := by
  rw [Distinct, keys_mapValues]; exact h

theorem Distinct.keepIf {m : Keyed κ α} (h : m.Distinct) (p : α → Bool) :
    (m.keepIf p).Distinct :=
  h.sublist (List.filter_sublist.map _)

variable [DecidableEq κ]

theorem get?_eq_none_iff {m : Keyed κ α} {k : κ} : m.get? k = none ↔ k ∉ m.keys := by
  induction m with
  | nil => simp [keys]
  | cons p m ih =>
    by_cases h : p.1 = k
    · simp [get?, keys, h]
    · simp [get?, keys, h, Ne.symm h, ih]

theorem mem_of_get? {m : Keyed κ α} {k : κ} {a : α} (h : m.get? k = some a) : (k, a) ∈ m := by
  induction m with
  | nil => simp at h
  | cons p m ih =>
    obtain ⟨k', a'⟩ := p
    by_cases hk : k' = k
    · simp_all [get?]
    · simp only [get?, hk, if_false] at h
      exact List.mem_cons_of_mem _ (ih h)

theorem get?_of_mem {m : Keyed κ α} (hm : m.Distinct) {k : κ} {a : α} (h : (k, a) ∈ m) :
    m.get? k = some a := by
  induction m with
  | nil => simp at h
  | cons p m ih =>
    obtain ⟨hp, hm⟩ := List.nodup_cons.1 hm
    rcases List.mem_cons.1 h with rfl | h
    · simp [get?]
    · have hk : p.1 ≠ k := by
        rintro rfl
        exact hp (mem_keys h)
      simpa [get?, hk] using ih hm h

/-- In a well-formed map the pairs are what look-ups find. -/
theorem mem_iff_get? {m : Keyed κ α} (hm : m.Distinct) {k : κ} {a : α} :
    (k, a) ∈ m ↔ m.get? k = some a :=
  ⟨get?_of_mem hm, mem_of_get?⟩

theorem mem_values {m : Keyed κ α} {k : κ} {a : α} (h : m.get? k = some a) : a ∈ m.values :=
  List.mem_map.2 ⟨_, mem_of_get? h, rfl⟩

/-! ## Putting -/

/-- A new key is put behind all others. -/
theorem put_new {m : Keyed κ α} {k : κ} (a : α) (h : m.get? k = none) : m.put k a = m ++ [(k, a)] := by
  induction m with
  | nil => rfl
  | cons p m ih =>
    obtain ⟨k', a'⟩ := p
    by_cases hk : k' = k
    · simp [get?, hk] at h
    · simp only [get?, hk, if_false] at h
      simp [put, hk, ih h]

/-- A key that is there keeps its place. -/
theorem put_old {m : Keyed κ α} (hm : m.Distinct) {k : κ} {a₀ : α} (a : α)
    (h : m.get? k = some a₀) : m.put k a = m.map fun p => if p.1 = k then (k, a) else p := by
  induction m with
  | nil => simp at h
  | cons p m ih =>
    obtain ⟨k', a'⟩ := p
    obtain ⟨hp, hm⟩ := List.nodup_cons.1 hm
    by_cases hk : k' = k
    · subst hk
      have : m.map (fun p => if p.1 = k' then (k', a) else p) = m := by
        refine (List.map_congr_left fun p hpm => if_neg ?_).trans (List.map_id m)
        rintro rfl
        exact hp (mem_keys hpm)
      simp [put, this]
    · simp only [get?, hk, if_false] at h
      simp [put, hk, ih hm h]

theorem keys_put_old {m : Keyed κ α} (hm : m.Distinct) {k : κ} {a₀ : α} (a : α)
    (h : m.get? k = some a₀) : (m.put k a).keys = m.keys := by
  rw [put_old hm a h, keys, List.map_map]
  refine List.map_congr_left fun p _ => ?_
  by_cases hk : p.1 = k <;> simp [hk]

theorem Distinct.put {m : Keyed κ α} (hm : m.Distinct) (k : κ) (a : α) : (m.put k a).Distinct := by
  cases h : m.get? k with
  | none =>
    rw [Distinct, put_new a h, keys, List.map_append]
    refine List.nodup_append.2 ⟨hm, by simp, ?_⟩
    rintro k' hk' k'' hk'' rfl
    simp only [List.map_cons, List.map_nil, List.mem_singleton] at hk''
    exact get?_eq_none_iff.1 h (hk'' ▸ hk')
  | some a₀ => rw [Distinct, keys_put_old hm a h]; exact hm

/-- Nothing but the new value comes to the values that were there. -/
theorem mem_values_put {m : Keyed κ α} {k : κ} {a b : α} (h : b ∈ (m.put k a).values) :
    b = a ∨ b ∈ m.values := by
  induction m with
  | nil => exact Or.inl (List.mem_singleton.1 h)
  | cons p m ih =>
    obtain ⟨k', a'⟩ := p
    by_cases hk : k' = k
    · simp only [put, hk, if_true, values, List.map_cons, List.mem_cons] at h ⊢
      exact h.imp_right Or.inr
    · simp only [put, hk, if_false, values, List.map_cons, List.mem_cons] at h ⊢
      rcases h with rfl | h
      · exact Or.inr (Or.inl rfl)
      · exact (ih h).imp_right Or.inr

/-! ## The other operations -/

theorem get?_mapValues (f : α → α) (m : Keyed κ α) (k : κ) :
    (m.mapValues f).get? k = (m.get? k).map f := by
  induction m with
  | nil => rfl
  | cons p m ih =>
    by_cases hk : p.1 = k
    · simp [mapValues, get?, hk]
    · simpa [mapValues, get?, hk] using ih

theorem get?_keepIf {m : Keyed κ α} (hm : m.Distinct) (p : α → Bool) (k : κ) :
    (m.keepIf p).get? k = (m.get? k).filter p := by
  ext a
  rw [Option.filter_eq_some_iff, ← mem_iff_get? (hm.keepIf p), ← mem_iff_get? hm, keepIf,
    List.mem_filter]

end JobQueue.Keyed
