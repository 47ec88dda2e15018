/-
  What the status of a stored job says about its other fields.

  A job that waits shows the traces of its last attempt if it had one, and none
  otherwise; a job in processing or completed was begun when it was due, and
  shows an error just when the attempt is not the first; a failed job has used
  up its attempts.  `Job.Shaped` collects these forms, and every change that
  the store makes leads from the form of the old status to that of the new one.

  The times of a job are readings of the clock, so they are in order as long as
  the clock is (`Job.InOrder`).  Both hold of every job of a reachable store,
  which keeps each job under its own name and gives no rank twice
  (`jobs_in_shape`).
-/
import JobQueue.Proofs.Store.Trace

namespace JobQueue

/-! ## Forms -/

namespace Job

/-- A job that waits has not ended, and its last attempt, if there was one, has left its traces. -/
structure Waiting (j : Job) : Prop where
  unfinished : j.completedAt = none
  noResult : j.result = none
  untried : j.attempts = 0 → j.startedAt = none ∧ j.worker = none ∧ j.error = none
  tried : j.attempts ≠ 0 → 1 ≤ j.attempts ∧ j.startedAt.isSome ∧ j.worker.isSome ∧ j.error.isSome

/-- An attempt was begun when it was due; those before it have left an error. -/
structure Begun (j : Job) : Prop where
  attempts : 1 ≤ j.attempts
  punctual : ∃ t, j.startedAt = some t ∧ j.scheduledAt ≤ t
  worker : j.worker.isSome
  error : j.error.isSome ↔ 2 ≤ j.attempts

/-- The attempt has not ended. -/
structure UnderWay (j : Job) : Prop extends Begun j where
  unfinished : j.completedAt = none
  noResult : j.result = none

/-- The attempt was the last one needed. -/
structure Done (j : Job) : Prop extends Begun j where
  finished : j.completedAt.isSome

/-- The attempt was the last one permitted. -/
structure Abandoned (j : Job) : Prop where
  finished : j.completedAt.isSome
  started : j.startedAt.isSome
  worker : j.worker.isSome
  error : j.error.isSome
  noResult : j.result = none
  spent : max j.maxAttempts.toInt 1 ≤ j.attempts.toInt

/-- The job has the form that belongs to its status. -/
def Shaped (j : Job) : Prop :=
  match j.status with
  | .pending => j.Waiting
  | .processing => j.UnderWay
  | .completed => j.Done
  | .failed => j.Abandoned

section
variable {j : Job}

theorem Shaped.waiting (h : j.Shaped) (hp : j.status = .pending) : j.Waiting := by
  simpa only [Shaped, hp] using h

theorem Shaped.underWay (h : j.Shaped) (hb : j.status = .processing) : j.UnderWay := by
  simpa only [Shaped, hb] using h

theorem Begun.tried (h : j.Begun) : j.attempts ≠ 0 := by
  intro h0
  have := Int32.le_iff_toInt_le.1 h.attempts
  rw [h0] at this
  exact absurd this (by decide)

theorem Begun.started (h : j.Begun) : j.startedAt.isSome := by
  obtain ⟨t, ht, -⟩ := h.punctual
  exact Option.isSome_of_eq_some ht

theorem shaped_new (sub : Submission) (id : String) (now : Millis) : (sub.toJob id now).Shaped where
  unfinished := rfl
  noResult := rfl
  untried _ := ⟨rfl, rfl, rfl⟩
  tried h := absurd rfl h

/-- The first attempt finds no error, a later one finds the error of the one before. -/
theorem Shaped.taken (h : j.Shaped) (hp : j.status = .pending) {now : Millis}
    (due : j.scheduledAt ≤ now) {n : Int32} (hn : succ32? j.attempts = some n) (worker : String) :
    (j.taken now worker n).Shaped := by
  have hw := h.waiting hp
  have hs : n.toInt = j.attempts.toInt + 1 := toInt_of_fit32? hn
  have hb : 1 ≤ n ∧ (j.error.isSome ↔ 2 ≤ n) := by
    by_cases h0 : j.attempts = 0
    · obtain ⟨-, -, he⟩ := hw.untried h0
      obtain rfl : n = 1 := by rw [← Int32.toInt_inj, hs, h0]; rfl
      exact ⟨by decide, by simp [he]⟩
    · obtain ⟨ha, -, -, he⟩ := hw.tried h0
      have ha : 1 ≤ j.attempts.toInt := Int32.le_iff_toInt_le.1 ha
      have h2 : 2 ≤ n := Int32.le_iff_toInt_le.2 (show 2 ≤ n.toInt by omega)
      exact ⟨Int32.le_trans (by decide) h2, iff_of_true he h2⟩
  exact { attempts := hb.1, punctual := ⟨now, rfl, due⟩, worker := rfl, error := hb.2,
          unfinished := hw.unfinished, noResult := hw.noResult }

theorem Shaped.finished (h : j.Shaped) (hb : j.status = .processing) (now : Millis)
    (result : Option Payload) : (j.finished now result).Shaped := by
  obtain ⟨ha, hp, hw, he⟩ := (h.underWay hb).toBegun
  exact { attempts := ha, punctual := hp, worker := hw, error := he, finished := rfl }

/-- An attempt that did not end the job leaves its traces behind. -/
theorem UnderWay.put_back (h : j.UnderWay) (due : Millis) (message : String) :
    Waiting { j with status := .pending, scheduledAt := due, error := some message } where
  unfinished := h.unfinished
  noResult := h.noResult
  untried h0 := absurd h0 h.tried
  tried _ := ⟨h.attempts, h.started, h.worker, rfl⟩

theorem Shaped.delayed (h : j.Shaped) (hb : j.status = .processing) (retryAt : Millis)
    (message : String) : (j.delayed retryAt message).Shaped :=
  (h.underWay hb).put_back retryAt message

theorem Shaped.requeued (h : j.Shaped) (hb : j.status = .processing) : j.requeued.Shaped :=
  (h.underWay hb).put_back j.scheduledAt requeueNote

theorem Shaped.givenUp (h : j.Shaped) (hb : j.status = .processing)
    (spent : j.maxAttempts ≤ j.attempts) (now : Millis) (message : String) :
    (j.givenUp now message).Shaped := by
  have hu := h.underWay hb
  refine { finished := rfl, started := hu.started, worker := hu.worker, error := rfl,
           noResult := hu.noResult, spent := ?_ }
  have h1 : (1 : ℤ) ≤ j.attempts.toInt := Int32.le_iff_toInt_le.1 hu.attempts
  exact max_le (Int32.le_iff_toInt_le.1 spent) h1

end

/-- The job was created, begun and ended in this order, as far as it was. -/
structure InOrder (j : Job) : Prop where
  started : ∀ t, j.startedAt = some t → j.createdAt ≤ t
  ended : ∀ t, j.completedAt = some t → j.createdAt ≤ t
  apart : ∀ t u, j.startedAt = some t → j.completedAt = some u → t ≤ u

end Job

namespace Volatile

/-! ## Along a history -/

/-- The readings of the clock, the last one first. -/
def readings (h : List Event) : List Millis := h.map (·.now)

/-- The readings never decrease. -/
def Steady (h : List Event) : Prop := (readings h).Pairwise (· ≥ ·)

/-- A stored job has the form of its status, and its times are readings of the clock. -/
structure Traced (h : List Event) (j : Job) : Prop where
  shaped : j.Shaped
  created : j.createdAt ∈ readings h
  started : ∀ t, j.startedAt = some t → t ∈ readings h
  inOrder : Steady h → j.InOrder

section
variable {h : List Event} {e : Event} {j : Job}

theorem Steady.past (hs : Steady (e :: h)) : Steady h := (List.pairwise_cons.1 hs).2

theorem Steady.last (hs : Steady (e :: h)) {t : Millis} (ht : t ∈ readings h) : t ≤ e.now :=
  (List.pairwise_cons.1 hs).1 t ht

theorem Traced.later (hk : Traced h j) (e : Event) : Traced (e :: h) j where
  shaped := hk.shaped
  created := List.mem_cons_of_mem _ hk.created
  started t ht := List.mem_cons_of_mem _ (hk.started t ht)
  inOrder hs := hk.inOrder hs.past

theorem Traced.enqueued (sub : Submission) (id : String) (h : List Event) :
    Traced (e :: h) (sub.toJob id e.now) where
  shaped := Job.shaped_new sub id e.now
  created := List.mem_cons_self
  started t ht := by cases ht
  inOrder _ := ⟨nofun, nofun, nofun⟩

theorem Traced.taken (hk : Traced h j) (hp : j.status = .pending) (due : j.scheduledAt ≤ e.now)
    {n : Int32} (hn : succ32? j.attempts = some n) (worker : String) :
    Traced (e :: h) (j.taken e.now worker n) where
  shaped := hk.shaped.taken hp due hn worker
  created := List.mem_cons_of_mem _ hk.created
  started t ht := by cases ht; exact List.mem_cons_self
  inOrder hs := by
    have hc : j.completedAt = none := (hk.shaped.waiting hp).unfinished
    refine ⟨?_, fun u hu => ?_, fun t u _ hu => ?_⟩
    · rintro _ ⟨⟩
      exact hs.last hk.created
    · exact absurd (hc.symm.trans hu) nofun
    · exact absurd (hc.symm.trans hu) nofun

/-- The end of an attempt comes after all that was before. -/
theorem Traced.ended (hk : Traced h j) {j' : Job} (hj : j'.Shaped) (created : j'.createdAt = j.createdAt)
    (started : j'.startedAt = j.startedAt) (ended : j'.completedAt = some e.now) :
    Traced (e :: h) j' where
  shaped := hj
  created := created ▸ List.mem_cons_of_mem _ hk.created
  started t ht := List.mem_cons_of_mem _ (hk.started t (started ▸ ht))
  inOrder hs := by
    refine ⟨fun t ht => ?_, fun u hu => ?_, fun t u ht hu => ?_⟩
    · rw [created]
      exact (hk.inOrder hs.past).started t (started ▸ ht)
    · obtain rfl := Option.some.inj (ended.symm.trans hu)
      rw [created]
      exact hs.last hk.created
    · obtain rfl := Option.some.inj (ended.symm.trans hu)
      exact hs.last (hk.started t (started ▸ ht))

/-- A job that waits again keeps its times. -/
theorem Traced.put_back (hk : Traced h j) {j' : Job} (hj : j'.Shaped)
    (created : j'.createdAt = j.createdAt) (started : j'.startedAt = j.startedAt)
    (ended : j'.completedAt = j.completedAt) (e : Event) : Traced (e :: h) j' where
  shaped := hj
  created := created ▸ List.mem_cons_of_mem _ hk.created
  started t ht := List.mem_cons_of_mem _ (hk.started t (started ▸ ht))
  inOrder hs := by
    obtain ⟨h₁, h₂, h₃⟩ := hk.inOrder hs.past
    exact ⟨by rwa [created, started], by rwa [created, ended], by rwa [started, ended]⟩

/-- Whatever a request does under a name, what is kept there is a job in shape. -/
theorem Fate.traced {rules : Rules} {now : Millis} {id : String} {r : Request}
    {a : Except Failure r.Answer} {x y : Option Ranked} {s s' : Volatile}
    (fate : Fate rules now id r a x y) (hk : ∀ w, x = some w → Traced h w.job) :
    ∀ w, y = some w → Traced (⟨now, r, a, s, s'⟩ :: h) w.job := by
  rintro w rfl
  cases fate with
  | same => exact (hk w rfl).later _
  | enqueued sub rank => exact .enqueued (e := ⟨now, _, _, s, s'⟩) sub id h
  | claimed pending due count =>
    exact (hk _ rfl).taken (e := ⟨now, _, _, s, s'⟩) pending due count _
  | completed busy => exact (hk _ rfl).ended ((hk _ rfl).shaped.finished busy ..) rfl rfl rfl
  | retried busy => exact (hk _ rfl).put_back ((hk _ rfl).shaped.delayed busy ..) rfl rfl rfl _
  | failed busy spent => exact (hk _ rfl).ended ((hk _ rfl).shaped.givenUp busy spent ..) rfl rfl rfl
  | requeued stale =>
    exact (hk _ rfl).put_back ((hk _ rfl).shaped.requeued (Job.busy_of_isStale stale)) rfl rfl rfl _

end

section
variable {rules : Rules} {h : List Event} {s : Volatile}

theorem History.traced (hist : History rules h s) (id : String) :
    ∀ x, s.jobs.get? id = some x → Traced h x.job := by
  refine hist.each_name (P := fun h _ y => ∀ x, y = some x → Traced h x.job) ?_ ?_ id
  · intro id x hx
    cases hx
  · intro h s s' id now r a x y _ _ _ hk _ fate
    exact fate.traced hk

theorem Trace.traced (trace : Trace rules h s) {x : Ranked} (hx : x ∈ s.stored) :
    Traced h x.job := by
  refine trace.each_job (P := fun h x => Traced h x.job) ?_ ?_ hx
  · intro h s e id sub _ _ _
    exact .enqueued sub id h
  · intro h s s' id now r a x y _ _ _ hk fate
    exact fate.traced (fun w hw => Option.some.inj hw ▸ hk) y rfl

/-- **Every job of a reachable store is in shape.**  Each is kept under its own name, no two have
    the same rank, and all ranks are below the next one; each has the form that belongs to its
    status.  If the readings of the clock never decreased, each was created, begun and ended in
    this order. -/
theorem jobs_in_shape (hist : History rules h s) :
    (∀ id x, (id, x) ∈ s.jobs → x.job.id = id) ∧
    (s.stored.map (·.rank)).Nodup ∧ (∀ x ∈ s.stored, x.rank < s.nextRank) ∧
    (∀ x ∈ s.stored, x.job.Shaped) ∧
    (Steady h → ∀ x ∈ s.stored, x.job.InOrder) := by
  have hv := hist.valid
  have hk : ∀ x ∈ s.stored, Traced h x.job := fun x hx =>
    hist.traced x.job.id x (hv.mem_stored.1 hx)
  refine ⟨fun id x hx => hv.id_eq (Keyed.get?_of_mem hv.distinct hx), ?_, hv.rank_lt,
    fun x hx => (hk x hx).shaped, fun hs x hx => (hk x hx).inOrder hs⟩
  exact List.Pairwise.imp (fun h => Nat.ne_of_lt h) (List.pairwise_map.2 hv.ascending)

end

/-- One job is claimed, put back, claimed again and completed, another one fails for good. -/
def oneOfEachEnd : List Call :=
  [⟨0, .enqueue "a" ⟨"q", "t", "o", .empty, {}⟩⟩, ⟨1, .dequeue "w" .any⟩, ⟨2, .requeueStale 2⟩,
    ⟨3, .dequeue "v" .any⟩, ⟨4, .complete "a" none⟩,
    ⟨5, .enqueue "b" ⟨"q", "t", "o", .empty, { maxAttempts := 1 }⟩⟩, ⟨6, .dequeue "w" .any⟩,
    ⟨7, .fail "b" "no"⟩]

theorem jobs_in_shape_oneOfEachEnd :
    History .default (replay .default oneOfEachEnd).1 (replay .default oneOfEachEnd).2 ∧
    Steady (replay .default oneOfEachEnd).1 ∧
    (replay .default oneOfEachEnd).2.stored.map (·.job.status) = [.completed, .failed] ∧
    ∀ x ∈ (replay .default oneOfEachEnd).2.stored, x.job.Shaped ∧ x.job.InOrder := by
  have hist : History .default (replay .default oneOfEachEnd).1 (replay .default oneOfEachEnd).2 :=
    .replay (by decide)
  have hs : Steady (replay .default oneOfEachEnd).1 := by unfold Steady; decide
  obtain ⟨-, -, -, shaped, inOrder⟩ := jobs_in_shape hist
  exact ⟨hist, hs, by decide, fun x hx => ⟨shaped x hx, inOrder hs x hx⟩⟩

end Volatile

end JobQueue
