/-
  What a producer's submission does to the volatile store.

  A submission that is not acceptable is refused for the first rule that it
  violates, by every kind of store and before the store is asked.  One that is
  acceptable is put behind all jobs under its fresh name, and nothing else
  happens; only a poisoned store refuses it.
-/
import JobQueue.Producer
import JobQueue.Proofs.Store.NextJob
import JobQueue.Proofs.Submission

namespace JobQueue

section
variable {σ : Type} {sub : Submission}

/-- What is acceptable reaches the store. -/
theorem submit_of_acceptable (store : Store σ) (ok : sub.Acceptable) (now : Millis) (id : String)
    (s : σ) : submit store now id sub s = store.ask now (.enqueue id sub) s := by
  rw [submit, Submission.check_eq_ok_iff.mpr ok]

/-- What is not acceptable does not. -/
theorem submit_of_not_acceptable (store : Store σ) (bad : ¬sub.Acceptable) (now : Millis)
    (id : String) (s : σ) :
    ∃ why, sub.Breaks why ∧
      submit store now id sub s = (.error (.error (.validation why)), s) := by
  obtain ⟨why, breaks, h⟩ := Submission.check_of_not_acceptable bad
  exact ⟨why, breaks, by rw [submit, h]⟩

end

namespace Volatile

section
variable {rules : Rules} {s : Volatile} {id : String} {job : Job}

/-- The store with one more job, behind all others. -/
def adding (s : Volatile) (id : String) (job : Job) : Volatile :=
  { s with jobs := s.jobs ++ [(id, ⟨s.nextRank, job⟩)], nextRank := s.nextRank + 1 }

theorem enqueue_of_healthy (healthy : s.poisoned = false) (fresh : s.jobs.get? id = none)
    (now : Millis) (sub : Submission) :
    enqueue now id sub s = (.ok (sub.toJob id now), s.adding id (sub.toJob id now)) := by
  rw [enqueue]
  refine hold_of_ok healthy ?_
  rw [Keyed.put_new _ fresh]
  rfl

theorem enqueue_of_poisoned (poisoned : s.poisoned = true) (now : Millis) (sub : Submission) :
    enqueue now id sub s = (.error (.error (.internal .poisoned)), s) :=
  if_pos poisoned

/-- The new job is found under its name. -/
theorem get_adding (healthy : s.poisoned = false) (fresh : s.jobs.get? id = none) :
    get id (s.adding id job) = (.ok job, s.adding id job) := by
  have found : (s.adding id job).jobs.get? id = some ⟨s.nextRank, job⟩ := by
    rw [adding, ← Keyed.put_new _ fresh, Keyed.get?_put, if_pos rfl]
  have still : (s.adding id job).poisoned = false := healthy
  rw [get]
  refine hold_of_ok still ?_
  simp only [find, found]
  rfl

/-- **What a producer submits.**  Take any store and a name that no job of it has.  A submission
    succeeds just when it is acceptable and the store is not poisoned; then one job is put behind
    all others, the waiting one that the submission describes, and it is found again under its
    name.  An acceptable submission to a poisoned store is refused with the error that says so, any
    other one for the first rule that it violates, and the store is as it was before. -/
theorem acceptable_submissions_are_kept (rules : Rules) (now : Millis)
    (fresh : s.jobs.get? id = none) (sub : Submission) :
    ((∃ job, (submit (store rules) now id sub s).1 = .ok job) ↔
      sub.Acceptable ∧ s.poisoned = false) ∧
    (∀ job s', submit (store rules) now id sub s = (.ok job, s') →
      job.IsSubmitted id now sub ∧
        s' = { s with
          jobs := s.jobs ++ [(id, ⟨s.nextRank, job⟩)]
          nextRank := s.nextRank + 1 } ∧
        ∀ now', ask rules now' (.get job.id) s' = (.ok job, s')) ∧
    (sub.Acceptable → s.poisoned = true →
      submit (store rules) now id sub s = (.error (.error (.internal .poisoned)), s)) ∧
    (¬sub.Acceptable → ∃ why, sub.Breaks why ∧
      submit (store rules) now id sub s = (.error (.error (.validation why)), s)) := by
  by_cases ok : sub.Acceptable
  · have asked : submit (store rules) now id sub s = enqueue now id sub s :=
      submit_of_acceptable (store rules) ok now id s
    rw [asked]
    by_cases poisoned : s.poisoned = true
    · rw [enqueue_of_poisoned poisoned]
      refine ⟨by simp [poisoned], ?_, fun _ _ => rfl, fun bad => absurd ok bad⟩
      intro job s' h
      cases congrArg Prod.fst h
    · have healthy : s.poisoned = false := Bool.eq_false_of_not_eq_true poisoned
      rw [enqueue_of_healthy healthy fresh]
      refine ⟨by simp [ok, healthy], ?_, fun _ h => absurd h poisoned, fun bad => absurd ok bad⟩
      intro job s' h
      obtain ⟨hjob, rfl⟩ := Prod.mk.inj h
      cases hjob
      exact ⟨sub.isSubmitted_toJob id now, rfl, fun _ => get_adding healthy fresh⟩
  · obtain ⟨why, breaks, h⟩ := submit_of_not_acceptable (store rules) ok now id s
    rw [h]
    refine ⟨by simp [ok], ?_, fun acceptable => absurd acceptable ok, fun _ => ⟨why, breaks, rfl⟩⟩
    intro job s' h
    cases congrArg Prod.fst h

/-- One job is waiting. -/
def oneWaiting : List Call := [⟨0, .enqueue "a" ⟨"q", "t", "o", .empty, {}⟩⟩]

/-- A job that is due a millisecond after it was submitted, and one whose type is blank. -/
def delayed : Submission := ⟨"mail.out", "t", "o", .empty, { schedule := .after (.ofMillis 1) }⟩

def nameless : Submission := ⟨"mail.out", "\t ", "o", .empty, { maxAttempts := 0 }⟩

/-- The one is kept behind the job that is there, the other one is refused for its type. -/
theorem acceptable_submissions_are_kept_delayed :
    (∃ job s', submit (store .default) 5 "b" delayed (replay .default oneWaiting).2 = (.ok job, s') ∧
      job.scheduledAt.toInt = 6 ∧ s'.stored.map (·.job.id) = ["a", "b"] ∧
      ask .default 9 (.get "b") s' = (.ok job, s')) ∧
    submit (store .default) 5 "b" nameless (replay .default oneWaiting).2 =
      (.error (.error (.validation .typeBlank)), (replay .default oneWaiting).2) := by
  have fresh : (replay .default oneWaiting).2.jobs.get? "b" = none := by decide
  have healthy : (replay .default oneWaiting).2.poisoned = false := by decide
  have hids : (replay .default oneWaiting).2.stored.map (·.job.id) = ["a"] := by decide
  obtain ⟨hok, hjob, -, -⟩ := acceptable_submissions_are_kept .default 5 fresh delayed
  obtain ⟨-, -, -, hbad⟩ := acceptable_submissions_are_kept .default 5 fresh nameless
  refine ⟨?_, ?_⟩
  · obtain ⟨job, h⟩ := hok.mpr ⟨by decide, healthy⟩
    obtain ⟨submitted, hs', hget⟩ := hjob job _ (Prod.ext h rfl)
    refine ⟨job, _, Prod.ext h rfl, ?_, ?_, ?_⟩
    · rw [submitted.due]
      decide
    · rw [hs', stored, Keyed.values, List.map_append, List.map_append, ← Keyed.values, ← stored, hids]
      simp [submitted.id_eq]
    · have found := hget 9
      rwa [submitted.id_eq] at found
  · have tab : isBlank '\t' = true := by decide
    have space : isBlank ' ' = true := by decide
    have untyped : ¬∃ c ∈ nameless.type.toList, ¬isBlank c := by simp [nameless, tab, space]
    obtain ⟨why, breaks, h⟩ := hbad (by decide)
    rw [h]
    cases breaks with
    | queue bad => exact absurd (by decide) bad.not_isQueueName
    | type => rfl
    | attempts _ typed => exact absurd typed untyped
    | payload _ typed => exact absurd typed untyped

/-- Once a request has broken off while it held the store, submissions are refused although there is
    nothing wrong with them. -/
theorem poisoned_store_refuses_submissions :
    Trace .default (replay .default tooOldCounter).1 (replay .default tooOldCounter).2 ∧
    (replay .default tooOldCounter).2.jobs.get? "b" = none ∧ delayed.Acceptable ∧
    (submit (store .default) Int64.maxValue "b" delayed (replay .default tooOldCounter).2).1 =
      .error (.error (.internal .poisoned)) :=
  ⟨Trace.replay .default tooOldCounter, by decide, by decide, by decide⟩

end

end Volatile

end JobQueue
