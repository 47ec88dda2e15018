/-
  The life of a job in the store.

  Whatever is asked of a reachable store, a job keeps what its producer asked
  for and the rank of its insertion, changes its status only along the arrows
  of its life, and never changes again once it is finished; it goes only when
  it is deleted, or purged after it was finished (`Lawful`).  Over a whole
  history: a finished job stays as it is, and no submission is lost
  (`lawful_life`).
-/
import JobQueue.Proofs.Store.History

namespace JobQueue

/-- What a job keeps as long as it is stored. -/
structure Ranked.SameIdentity (x y : Ranked) : Prop where
  rank : y.rank = x.rank
  id : y.job.id = x.job.id
  queue : y.job.queue = x.job.queue
  type : y.job.type = x.job.type
  org : y.job.org = x.job.org
  payload : y.job.payload = x.job.payload
  priority : y.job.priority = x.job.priority
  createdAt : y.job.createdAt = x.job.createdAt
  maxAttempts : y.job.maxAttempts = x.job.maxAttempts

theorem Ranked.SameIdentity.refl (x : Ranked) : x.SameIdentity x :=
  ⟨rfl, rfl, rfl, rfl, rfl, rfl, rfl, rfl, rfl⟩

/-- The changes of status that a request can make to the job named `id`. -/
inductive Request.Moves (id : String) : Request → Status → Status → Prop where
  | claim (worker : String) (queues : QueueSet) :
      Moves id (.dequeue worker queues) .pending .processing
  | complete (result : Option Payload) : Moves id (.complete id result) .processing .completed
  | retry (message : String) : Moves id (.fail id message) .processing .pending
  | giveUp (message : String) : Moves id (.fail id message) .processing .failed
  | putBack (before : Millis) : Moves id (.requeueStale before) .processing .pending

/-- Does the request go over all jobs? -/
def Request.isSweep : Request → Bool
  | .requeueStale _ | .purge _ => true
  | _ => false

namespace Volatile

/-- A finished job that a purge may forget. -/
def Purgeable (before : Millis) (x : Ranked) : Prop :=
  x.job.status.isTerminal = true ∧ ∃ t, x.job.completedAt = some t ∧ t < before

theorem purgeable_of_isFinishedBefore {before : Millis} {x : Ranked}
    (h : x.job.isFinishedBefore before = true) : Purgeable before x := by
  simp only [Job.isFinishedBefore, Bool.and_eq_true, Option.any_eq_true, decide_eq_true_eq] at h
  exact h

/-- The laws of a request that leads from one state to another. -/
structure Lawful (r : Request) (s s' : Volatile) : Prop where
  identity : ∀ id x y, s.jobs.get? id = some x → s'.jobs.get? id = some y → x.SameIdentity y
  status : ∀ id x y, s.jobs.get? id = some x → s'.jobs.get? id = some y →
    y.job.status = x.job.status ∨ r.Moves id x.job.status y.job.status
  single : r.isSweep = false → ∃ id, ∀ id', id' ≠ id → s'.jobs.get? id' = s.jobs.get? id'
  finished : ∀ id x y, s.jobs.get? id = some x → s'.jobs.get? id = some y →
    x.job.status.isTerminal = true → y = x
  gone : ∀ id x, s.jobs.get? id = some x → s'.jobs.get? id = none →
    r = .delete id ∨ ∃ before, r = .purge before ∧ Purgeable before x

section
variable {rules : Rules} {now : Millis} {r : Request} {a : Except Failure r.Answer} {id : String}

theorem Fate.identity {x y : Ranked} (h : Fate rules now id r a (some x) (some y)) :
    x.SameIdentity y := by
  cases h with
  | same => exact .refl x
  | claimed | completed | retried | failed | requeued =>
    exact ⟨rfl, rfl, rfl, rfl, rfl, rfl, rfl, rfl, rfl⟩

theorem Fate.status {x y : Ranked} (h : Fate rules now id r a (some x) (some y)) :
    y.job.status = x.job.status ∨ r.Moves id x.job.status y.job.status := by
  cases h with
  | same => exact Or.inl rfl
  | claimed pending => rw [pending]; exact Or.inr (.claim ..)
  | completed busy => rw [busy]; exact Or.inr (.complete _)
  | retried busy => rw [busy]; exact Or.inr (.retry _)
  | failed busy => rw [busy]; exact Or.inr (.giveUp _)
  | requeued stale => rw [Job.busy_of_isStale stale]; exact Or.inr (.putBack _)

theorem Fate.finished {x y : Ranked} (h : Fate rules now id r a (some x) (some y))
    (ht : x.job.status.isTerminal = true) : y = x := by
  cases h with
  | same => rfl
  | claimed pending => rw [pending] at ht; cases ht
  | completed busy => rw [busy] at ht; cases ht
  | retried busy => rw [busy] at ht; cases ht
  | failed busy => rw [busy] at ht; cases ht
  | requeued stale => rw [Job.busy_of_isStale stale] at ht; cases ht

theorem Fate.gone {x : Ranked} (h : Fate rules now id r a (some x) none) :
    r = .delete id ∨ ∃ before, r = .purge before ∧ Purgeable before x := by
  cases h with
  | deleted => exact Or.inl rfl
  | purged old => exact Or.inr ⟨_, rfl, purgeable_of_isFinishedBefore old⟩

/-- A request that is no sweep touches what is kept under one name at most. -/
theorem Step.single {s s' : Volatile} (h : Step rules now s r a s') (hr : r.isSweep = false) :
    ∃ id, ∀ id', id' ≠ id → s'.jobs.get? id' = s.jobs.get? id' := by
  have hput : ∀ id x id', id' ≠ id → (s.jobs.put id x).get? id' = s.jobs.get? id' :=
    fun id x id' hne => by rw [Keyed.get?_put, if_neg hne.symm]
  cases h with
  | still _ _ hj => exact ⟨"", fun id' _ => by rw [hj]⟩
  | enqueued id sub => exact ⟨id, hput id _⟩
  | @claimed worker queues x n next => exact ⟨x.job.id, hput x.job.id _⟩
  | @completed id => exact ⟨id, hput id _⟩
  | @retried id => exact ⟨id, hput id _⟩
  | @failed id => exact ⟨id, hput id _⟩
  | deleted id => exact ⟨id, fun id' hne => by rw [Keyed.get?_erase, if_neg hne.symm]⟩
  | requeued => cases hr
  | purged => cases hr

end

section
variable {rules : Rules} {h : List Event} {s : Volatile}

theorem History.lawful (hist : History rules h s) (now : Millis) {r : Request} (fresh : Fresh h r) :
    Lawful r s (ask rules now r s).2 := by
  have hf := hist.step fresh now
  refine ⟨fun id x y hx hy => ?_, fun id x y hx hy => ?_, (step_ask rfl).single,
    fun id x y hx hy => ?_, fun id x hx hy => ?_⟩
  · exact (hx ▸ hy ▸ hf id).identity
  · exact (hx ▸ hy ▸ hf id).status
  · exact (hx ▸ hy ▸ hf id).finished
  · exact (hx ▸ hy ▸ hf id).gone

/-- Every event of a history is the last one of a history of its own. -/
theorem History.of_mem (hist : History rules h s) {e : Event} (he : e ∈ h) :
    ∃ past, (e :: past) <:+ h ∧ History rules (e :: past) e.after := by
  induction hist with
  | start => cases he
  | @next h s past now r fresh ih =>
    rcases List.mem_cons.1 he with rfl | he
    · exact ⟨h, List.suffix_rfl, .next past now r fresh⟩
    · obtain ⟨p, hp, hh⟩ := ih he
      exact ⟨p, hp.trans (List.suffix_cons _ _), hh⟩

theorem History.named_after (hist : History rules h s) {e : Event} (he : e ∈ h) {id : String}
    {x : Ranked} (hx : e.after.jobs.get? id = some x) : id ∈ names h := by
  obtain ⟨past, hp, hh⟩ := hist.of_mem he
  exact (hp.sublist.filterMap _).subset (hh.named hx)

/-- A finished job stays as it is. -/
theorem History.finished_stays (hist : History rules h s) (id : String) :
    ∀ e ∈ h, ∀ x, e.after.jobs.get? id = some x → x.job.status.isTerminal = true →
      ∀ y, s.jobs.get? id = some y → y = x := by
  refine hist.each_name (P := fun h id y => ∀ e ∈ h, ∀ x, e.after.jobs.get? id = some x →
    x.job.status.isTerminal = true → ∀ z, y = some z → z = x) ?_ ?_ id
  · intro id e he
    cases he
  · intro h s s' id now r a x y past hx hy ih fresh fate e he w hw ht z hz
    rcases List.mem_cons.1 he with rfl | he'
    · exact Option.some.inj (hz.symm.trans (hy.symm.trans hw))
    · subst hz
      cases x with
      | some x =>
        obtain rfl := ih e he' w hw ht x rfl
        exact fate.finished ht
      | none =>
        -- the name was given before, so nothing new is kept under it
        cases fate with
        | enqueued sub => exact absurd (past.named_after he' hw) (fresh id sub rfl)

/-- The job was stored until it was deleted or, after it was finished, purged. -/
def Released (id : String) (h : List Event) : Prop :=
  ∃ e ∈ h, ∃ x, e.before.jobs.get? id = some x ∧ e.after.jobs.get? id = none ∧
    (e.request = .delete id ∨ ∃ before, e.request = .purge before ∧ Purgeable before x)

theorem Released.cons {id : String} (hr : Released id h) (e : Event) : Released id (e :: h) := by
  obtain ⟨e', he', hr⟩ := hr
  exact ⟨e', List.mem_cons_of_mem e he', hr⟩

/-- A submission is stored until its job is released. -/
theorem History.kept (hist : History rules h s) (id : String) :
    ∀ sub, (id, sub) ∈ submissions h → s.jobs.get? id = none → Released id h := by
  refine hist.each_name (P := fun h id y => ∀ sub, (id, sub) ∈ submissions h → y = none →
    Released id h) ?_ ?_ id
  · intro id sub hs
    cases hs
  · intro h s s' id now r a x y past hx hy ih fresh fate sub hs hn
    subst hn
    cases x with
    | some x => exact ⟨_, List.mem_cons_self, x, hx, hy, fate.gone⟩
    | none =>
      cases fate with
      | same _ _ idle =>
        exact (ih sub (mem_submissions_of_ne (e := ⟨now, r, a, s, s'⟩) (idle sub) hs) rfl).cons _

/-- **The life of a job is lawful.**  Every request to a reachable store obeys the laws; along a
    history a finished job never changes, and a submission is stored until its job is deleted or,
    after it was finished, purged. -/
theorem lawful_life (hist : History rules h s) :
    (∀ now r, Fresh h r → Lawful r s (ask rules now r s).2) ∧
    (∀ e ∈ h, ∀ id x y, e.after.jobs.get? id = some x → x.job.status.isTerminal = true →
      s.jobs.get? id = some y → y = x) ∧
    (∀ id sub, (id, sub) ∈ submissions h → s.jobs.get? id = none → Released id h) :=
  ⟨fun now _ fresh => hist.lawful now fresh,
    fun e he id x y hx ht hy => hist.finished_stays id e he x hx ht y hy,
    fun id => hist.kept id⟩

end

/-- A job is claimed, completed and purged. -/
def doneAndPurged : List Call :=
  [⟨0, .enqueue "a" ⟨"q", "t", "o", .empty, {}⟩⟩, ⟨1, .dequeue "w" .any⟩, ⟨2, .complete "a" none⟩,
    ⟨3, .delete "b"⟩, ⟨4, .purge 3⟩]

theorem lawful_life_doneAndPurged :
    History .default (replay .default doneAndPurged).1 (replay .default doneAndPurged).2 ∧
    (replay .default doneAndPurged).2.jobs.get? "a" = none ∧
    Released "a" (replay .default doneAndPurged).1 := by
  have hist : History .default (replay .default doneAndPurged).1 (replay .default doneAndPurged).2 :=
    .replay (by decide)
  have hn : (replay .default doneAndPurged).2.jobs.get? "a" = none := by decide
  exact ⟨hist, hn, (lawful_life hist).2.2 "a" ⟨"q", "t", "o", .empty, {}⟩ (by decide) hn⟩

end Volatile

end JobQueue
