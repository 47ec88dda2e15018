/-
  What stores answer to submissions.

  A store of any kind that takes a submission answers with the job that it
  describes, and from then on with the same job when it is asked for it by its
  name (`AnyStore.kept_of_enqueue`).
-/
import JobQueue.Producer
import JobQueue.Store.Any
import Mathlib

namespace JobQueue

/-- A row that was inserted is found under its name, since no other row has it. -/
theorem Rows.byId?_of_insert? {rank : ℕ} {job : Job} {rows rows' : List Ranked}
    (h : insert? rank job rows = some rows') : byId? job.id rows' = some job := by
  unfold insert? at h
  split at h
  · cases h
  · next fresh =>
    cases h
    have hnone : rows.find? (·.job.id == job.id) = none := by
      rw [List.find?_eq_none]
      exact fun x hx hid => fresh (List.any_eq_true.2 ⟨x, hx, hid⟩)
    simp [byId?, List.find?_append, hnone]

variable {now : Millis} {id : String} {sub : Submission} {job : Job}

theorem Volatile.kept_of_enqueue {s s' : Volatile} (h : enqueue now id sub s = (.ok job, s')) :
    job = sub.toJob id now ∧ (get id s').1 = .ok job := by
  unfold enqueue hold at h
  split at h
  · cases h
  · next healthy =>
    cases h
    refine ⟨rfl, ?_⟩
    simp [get, hold, healthy, find, Keyed.get?_put, Except.map]

/-! ## Database files -/

namespace Sqlite

/-- What a connection to a file answers is the answer of its statement. -/
theorem of_change_ok {α : Type} {statement : Database → Except EngineFault (α × Database)}
    {c c' : Connection} {a : α} (h : change statement c = (.ok a, c')) :
    c.isOpen = true ∧ ∃ d, statement c.database = .ok (a, d) ∧ c' = { c with database := d } := by
  unfold change perform at h
  split at h
  · cases h
  · next isOpen =>
    refine ⟨by simpa using isOpen, ?_⟩
    cases hs : statement c.database with
    | error f =>
      simp only [hs, Except.bind] at h
      cases h
    | ok r =>
      cases ho : c.isReadOnly with
      | true =>
        simp only [hs, ho, Except.bind, if_true] at h
        cases h
      | false =>
        simp only [hs, ho, Except.bind, Bool.false_eq_true, if_false] at h
        cases h
        exact ⟨r.2, rfl, rfl⟩

theorem kept_of_enqueue {c c' : Connection} (h : enqueue now id sub c = (.ok job, c')) :
    job = sub.toJob id now ∧ fetchExisting id c' = .ok job := by
  obtain ⟨isOpen, d, hd, rfl⟩ := of_change_ok h
  cases hr : c.database.jobRows .sqlite with
  | error f =>
    rw [hr] at hd
    cases hd
  | ok r =>
    simp only [hr, Except.bind] at hd
    split at hd
    · cases hd
    · next rows hrows =>
      cases hd
      have found : Rows.byId? id rows = some (sub.toJob id now) := Rows.byId?_of_insert? hrows
      refine ⟨rfl, ?_⟩
      simp [fetchExisting, fetch, perform, isOpen, look, Database.jobRows, Database.setJobs, found,
        Except.bind, Except.map]

end Sqlite

/-! ## Database servers -/

namespace Postgres

/-- What a connection to a server answers is the answer of its statement. -/
theorem of_perform_ok {α : Type} {statement : Database → Except EngineFault α × Database}
    {c c' : Connection} {a : α} (h : perform statement c = (.ok a, c')) :
    c.isOpen = true ∧ ∃ d, statement c.database = (.ok a, d) ∧ c' = { c with database := d } := by
  unfold perform at h
  split at h
  · cases h
  · next isOpen =>
    refine ⟨by simpa using isOpen, ?_⟩
    split at h
    · cases h
    · next a' d hs =>
      cases h
      exact ⟨d, hs, rfl⟩

/-- Texts that a statement took have no null character. -/
theorem of_jobRows_ok {texts : List String} {d : Database} {r : List Ranked × ℕ}
    (h : jobRows texts d = .ok r) : d.jobRows .postgres = .ok r ∧ checkTexts texts = .ok () := by
  unfold jobRows at h
  cases hr : d.jobRows .postgres with
  | error f =>
    rw [hr] at h
    cases h
  | ok r' =>
    cases ht : checkTexts texts with
    | error f =>
      rw [hr, ht] at h
      cases h
    | ok =>
      rw [hr, ht] at h
      cases h
      exact ⟨rfl, rfl⟩

theorem checkTexts_head {t : String} {ts : List String} (h : checkTexts (t :: ts) = .ok ()) :
    checkTexts [t] = .ok () := by
  unfold checkTexts at h ⊢
  split at h
  · cases h
  · next clean =>
    refine if_neg fun hnull => clean ?_
    rw [List.any_cons, List.any_nil, Bool.or_false] at hnull
    rw [List.any_cons, hnull, Bool.true_or]

theorem kept_of_enqueue {c c' : Connection} (h : enqueue now id sub c = (.ok job, c')) :
    job = sub.toJob id now ∧ fetchExisting id c' = .ok job := by
  obtain ⟨isOpen, d, hd, rfl⟩ := of_perform_ok h
  unfold insertJob at hd
  split at hd
  · cases hd
  · next rows identity hr =>
    have clean := checkTexts_head (of_jobRows_ok hr).2
    split at hd
    · cases hd
    · next rows' hrows =>
      cases hd
      have found : Rows.byId? id rows' = some (sub.toJob id now) := Rows.byId?_of_insert? hrows
      have hid : (sub.toJob id now).id = id := rfl
      rw [hid] at clean
      refine ⟨rfl, ?_⟩
      simp [fetchExisting, fetch, perform, isOpen, JobQueue.Postgres.clean, look, jobRows,
        Database.jobRows, Database.setJobs, clean, found, Except.bind, Except.map]

end Postgres

/-! ## All stores -/

/-- **A submission that is taken is kept**: a store of any kind answers with the job that was
    submitted, and finds it under its name. -/
theorem AnyStore.kept_of_enqueue {rules : Rules} {s s' : AnyStore}
    (h : ask rules now (.enqueue id sub) s = (.ok job, s')) :
    job = sub.toJob id now ∧ ∀ now', (ask rules now' (.get id) s').1 = .ok job := by
  cases s with
  | volatile s =>
    obtain ⟨h₁, rfl⟩ := Prod.mk.inj h
    obtain ⟨hjob, hget⟩ := Volatile.kept_of_enqueue (Prod.ext h₁ rfl)
    exact ⟨hjob, fun _ => hget⟩
  | sqlite c =>
    obtain ⟨h₁, rfl⟩ := Prod.mk.inj h
    obtain ⟨hjob, hget⟩ := Sqlite.kept_of_enqueue (Prod.ext h₁ rfl)
    exact ⟨hjob, fun _ => hget⟩
  | postgres c =>
    obtain ⟨h₁, rfl⟩ := Prod.mk.inj h
    obtain ⟨hjob, hget⟩ := Postgres.kept_of_enqueue (Prod.ext h₁ rfl)
    exact ⟨hjob, fun _ => hget⟩

/-- So it is with what a producer submits. -/
theorem AnyStore.kept_of_submit {rules : Rules} {s s' : AnyStore}
    (h : submit (store rules) now id sub s = (.ok job, s')) :
    job = sub.toJob id now ∧ ∀ now', (ask rules now' (.get id) s').1 = .ok job := by
  unfold submit at h
  split at h
  · cases h
  · exact kept_of_enqueue h

end JobQueue
