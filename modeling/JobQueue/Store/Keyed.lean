/-
  Maps kept as lists of pairs.

  Each key occurs at most once.  The order of the pairs has no meaning: it is
  the order in which an enumeration happens to visit them.
-/

namespace JobQueue

/-- A map from keys to values. -/
abbrev Keyed (κ α : Type) := List (κ × α)

namespace Keyed

variable {κ α : Type} [DecidableEq κ]

/-- The value under a key. -/
def get? : Keyed κ α → κ → Option α
  | [], _ => none
  | (k', a) :: m, k => if k' = k then some a else get? m k

/-- Puts a value under a key, in place of an earlier one. -/
def put : Keyed κ α → κ → α → Keyed κ α
  | [], k, a => [(k, a)]
  | (k', a') :: m, k, a => if k' = k then (k, a) :: m else (k', a') :: put m k a

/-- Takes a key and its value away. -/
def erase (m : Keyed κ α) (k : κ) : Keyed κ α := m.filter fun p => p.1 ≠ k

/-- The values, in the order of an enumeration. -/
def values (m : Keyed κ α) : List α := m.map (·.2)

/-- Changes every value. -/
def mapValues (f : α → α) (m : Keyed κ α) : Keyed κ α := m.map fun p => (p.1, f p.2)

/-- Keeps the values with a property. -/
def keepIf (p : α → Bool) (m : Keyed κ α) : Keyed κ α := m.filter fun q => p q.2

@[simp] theorem get?_nil (k : κ) : get? ([] : Keyed κ α) k = none := rfl

theorem get?_put (m : Keyed κ α) (k k' : κ) (a : α) :
    (m.put k a).get? k' = if k = k' then some a else m.get? k' := by
  induction m with
  | nil => rfl
  | cons p m ih =>
    obtain ⟨k₀, a₀⟩ := p
    by_cases h : k₀ = k
    · subst h; by_cases h' : k₀ = k' <;> simp [put, get?, h']
    · by_cases h' : k₀ = k'
      · subst h'; simp [put, get?, h, Ne.symm h]
      · simp [put, get?, h, h', ih]

theorem get?_erase (m : Keyed κ α) (k k' : κ) :
    (m.erase k).get? k' = if k = k' then none else m.get? k' := by
  induction m with
  | nil => simp [erase]
  | cons p m ih =>
    obtain ⟨k₀, a₀⟩ := p
    unfold erase at ih ⊢
    by_cases h : k₀ = k
    · subst h; by_cases h' : k₀ = k' <;> simp_all [get?]
    · by_cases h' : k₀ = k'
      · subst h'; simp [get?, h, Ne.symm h]
      · simpa [get?, h, h'] using ih

end Keyed

end JobQueue
