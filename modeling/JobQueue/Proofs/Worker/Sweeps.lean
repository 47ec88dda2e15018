/-
  What the sweeps do.

  A recovery puts back the jobs that have been in processing for longer than a
  window, a clean-up forgets the jobs that were finished longer ago than they
  are kept.  Both compare a time with a point of the clock; where no time is
  negative this compares the spans as integers, also a span that the clock does
  not hold (`lt_cutoff_iff`).

  Sweeps of one kind that follow one another are one sweep at the later point,
  and those of the two kinds do not get in each other's way: a job that is put
  back is not finished, and no finished job is put back.
-/
import JobQueue.Proofs.Store.Epoch
import JobQueue.Proofs.Store.Shape
import JobQueue.Proofs.Worker.Recovery

namespace JobQueue

/-! ## Points of the clock -/

/-- Of times that are not negative just those lie before the cutoff that are longer ago than the
    span. -/
theorem lt_cutoff_iff {now t : Millis} {d : Span} (hn : 0 ≤ now.toInt) (ht : 0 ≤ t.toInt) :
    t < cutoff now d ↔ (d.wholeMillis : ℤ) < now.toInt - t.toInt := by
  refine ⟨fun h => ?_, lt_cutoff⟩
  have hnow := Int64.toInt_lt now
  rw [Int64.lt_iff_toInt_lt, cutoff, subClamped, Span.toMillis, toInt_clamp, toInt_clamp] at h
  omega

theorem lt_max_millis {t a b : Millis} : t < max a b ↔ t < a ∨ t < b := by
  rw [show max a b = if a ≤ b then b else a from rfl]
  simp only [Int64.lt_iff_toInt_lt]
  split
  · have := Int64.le_iff_toInt_le.1 ‹a ≤ b›
    omega
  · have := Int64.lt_iff_toInt_lt.1 (Int64.not_le.1 ‹¬ a ≤ b›)
    omega

namespace Job

/-! ## Overdue jobs -/

/-- The job has been in processing for longer than a span. -/
def IsLost (j : Job) (now : Millis) (window : Span) : Prop :=
  j.status = .processing ∧ ∃ t ∈ j.startedAt, (window.wholeMillis : ℤ) < now.toInt - t.toInt

/-- The job was completed, or failed for good, longer ago than a span. -/
def IsOutdated (j : Job) (now : Millis) (retention : Span) : Prop :=
  (j.status = .completed ∨ j.status = .failed) ∧
    ∃ t ∈ j.completedAt, (retention.wholeMillis : ℤ) < now.toInt - t.toInt

-- the times are looked up, since the instance for an existential would try them all
instance (j : Job) (now : Millis) (window : Span) : Decidable (j.IsLost now window) :=
  decidable_of_iff (j.status = .processing ∧ j.startedAt.any
    fun t => (window.wholeMillis : ℤ) < now.toInt - t.toInt) <| by
      simp only [IsLost, Option.any_eq_true, decide_eq_true_eq, Option.mem_def]

instance (j : Job) (now : Millis) (retention : Span) : Decidable (j.IsOutdated now retention) :=
  decidable_of_iff ((j.status = .completed ∨ j.status = .failed) ∧ j.completedAt.any
    fun t => (retention.wholeMillis : ℤ) < now.toInt - t.toInt) <| by
      simp only [IsOutdated, Option.any_eq_true, decide_eq_true_eq, Option.mem_def]

section
variable {j : Job} {now : Millis}

theorem isStale_cutoff (shaped : j.Shaped) (times : ∀ t, j.startedAt = some t → 0 ≤ t.toInt)
    (hn : 0 ≤ now.toInt) (window : Span) :
    j.isStale (cutoff now window) = decide (j.IsLost now window) := by
  by_cases hb : j.status = .processing
  · obtain ⟨t, ht, -⟩ := (shaped.underWay hb).punctual
    simp [isStale, IsLost, hb, ht, lt_cutoff_iff hn (times t ht)]
  · simp [isStale, IsLost, hb]

theorem isFinishedBefore_cutoff (times : ∀ t, j.completedAt = some t → 0 ≤ t.toInt)
    (hn : 0 ≤ now.toInt) (retention : Span) :
    j.isFinishedBefore (cutoff now retention) = decide (j.IsOutdated now retention) := by
  have hterminal : j.status.isTerminal = true ↔ j.status = .completed ∨ j.status = .failed := by
    cases j.status <;> decide
  rw [Bool.eq_iff_iff, isFinishedBefore, Bool.and_eq_true, hterminal, decide_eq_true_eq]
  refine and_congr_right' ?_
  cases ht : j.completedAt with
  | none => simp
  | some t => simp [lt_cutoff_iff hn (times t ht)]

/-! ## One sweep after the other -/

theorem isStale_max (j : Job) (a b : Millis) :
    j.isStale (max a b) = (j.isStale a || j.isStale b) := by
  cases ht : j.startedAt <;> simp [isStale, ht, lt_max_millis, Bool.and_or_distrib_left]

theorem isFinishedBefore_max (j : Job) (a b : Millis) :
    j.isFinishedBefore (max a b) = (j.isFinishedBefore a || j.isFinishedBefore b) := by
  cases ht : j.completedAt <;> simp [isFinishedBefore, ht, lt_max_millis, Bool.and_or_distrib_left]

/-- A job that was put back waits. -/
theorem isStale_requeued (j : Job) (before : Millis) : j.requeued.isStale before = false := rfl

theorem isFinishedBefore_requeued (j : Job) (before : Millis) :
    j.requeued.isFinishedBefore before = false := rfl

theorem isFinishedBefore_of_isStale {a : Millis} (stale : j.isStale a = true) (b : Millis) :
    j.isFinishedBefore b = false := by
  rw [isFinishedBefore, busy_of_isStale stale]
  rfl

end

end Job

namespace Keyed

variable {κ α : Type}

theorem mapValues_congr {f g : α → α} {m : Keyed κ α} (h : ∀ a ∈ m.values, f a = g a) :
    m.mapValues f = m.mapValues g :=
  List.map_congr_left fun p hp => by rw [h p.2 (List.mem_map_of_mem hp)]

theorem keepIf_congr {p q : α → Bool} {m : Keyed κ α} (h : ∀ a ∈ m.values, p a = q a) :
    m.keepIf p = m.keepIf q :=
  List.filter_congr fun x hx => h x.2 (List.mem_map_of_mem hx)

theorem mapValues_mapValues (f g : α → α) (m : Keyed κ α) :
    (m.mapValues f).mapValues g = m.mapValues fun a => g (f a) := by
  simp [mapValues]

theorem keepIf_keepIf (p q : α → Bool) (m : Keyed κ α) :
    (m.keepIf p).keepIf q = m.keepIf fun a => p a && q a := by
  simp [keepIf, List.filter_filter, Bool.and_comm]

/-- Values can be changed before or after others are taken away. -/
theorem keepIf_mapValues {f : α → α} {p : α → Bool} (hp : ∀ a, p (f a) = p a) (m : Keyed κ α) :
    (m.mapValues f).keepIf p = (m.keepIf p).mapValues f := by
  simp [mapValues, keepIf, List.filter_map, Function.comp_def, hp]

end Keyed

/-- What has one of two properties has the first, or only the second. -/
theorem countP_or {α : Type} (p q : α → Bool) (l : List α) :
    l.countP (fun a => p a || q a) = l.countP p + l.countP fun a => !p a && q a := by
  induction l with
  | nil => rfl
  | cons a l ih =>
    rw [List.countP_cons, List.countP_cons, List.countP_cons, ih]
    cases p a <;> cases q a <;> simp <;> omega

namespace Volatile

section
variable {s : Volatile}

/-- What a sweep makes of a stored job. -/
def putBack (before : Millis) (x : Ranked) : Ranked :=
  if x.job.isStale before then { x with job := x.job.requeued } else x

theorem isStale_putBack (a b : Millis) (x : Ranked) :
    (putBack a x).job.isStale b = (!x.job.isStale a && x.job.isStale b) := by
  cases ha : x.job.isStale a <;> simp [putBack, ha, Job.isStale_requeued]

theorem isFinishedBefore_putBack (a b : Millis) (x : Ranked) :
    (putBack a x).job.isFinishedBefore b = x.job.isFinishedBefore b := by
  cases ha : x.job.isStale a
  · simp [putBack, ha]
  · simp [putBack, ha, Job.isFinishedBefore_requeued, Job.isFinishedBefore_of_isStale ha]

theorem putBack_putBack (a b : Millis) (x : Ranked) :
    putBack b (putBack a x) = putBack (max a b) x := by
  rw [putBack, isStale_putBack]
  cases ha : x.job.isStale a <;> simp [putBack, ha, Job.isStale_max]

section
variable (healthy : s.poisoned = false)
include healthy

theorem requeueStale_eq (before : Millis) :
    requeueStale before s = (.ok (s.stored.countP fun x => x.job.isStale before),
      { s with jobs := s.jobs.mapValues (putBack before) }) :=
  requeueStale_of_healthy healthy before

theorem purge_eq (before : Millis) :
    purge before s = (.ok (s.stored.countP fun x => x.job.isFinishedBefore before), { s with
      jobs := s.jobs.keepIf fun x => !x.job.isFinishedBefore before }) :=
  hold_of_ok healthy rfl

/-- One recovery after the other is one at the later point. -/
theorem requeueStale_requeueStale (a b : Millis) :
    ∃ m n s₁ s₂, requeueStale a s = (.ok m, s₁) ∧ requeueStale b s₁ = (.ok n, s₂) ∧
      requeueStale (max a b) s = (.ok (m + n), s₂) := by
  have hcount : s.stored.countP (fun x => x.job.isStale (max a b)) =
      s.stored.countP (fun x => x.job.isStale a) +
        (s.stored.map (putBack a)).countP fun x => x.job.isStale b := by
    rw [List.countP_map]
    simp only [Job.isStale_max, countP_or, Function.comp_def, isStale_putBack]
  refine ⟨_, _, _, _, requeueStale_eq healthy a, requeueStale_eq ?_ b, ?_⟩
  · exact healthy
  · rw [requeueStale_eq healthy, hcount]
    simp only [stored, Keyed.values_mapValues, Keyed.mapValues_mapValues, putBack_putBack]

/-- One clean-up after the other is one at the later point. -/
theorem purge_purge (a b : Millis) :
    ∃ m n s₁ s₂, purge a s = (.ok m, s₁) ∧ purge b s₁ = (.ok n, s₂) ∧
      purge (max a b) s = (.ok (m + n), s₂) := by
  have hcount : s.stored.countP (fun x => x.job.isFinishedBefore (max a b)) =
      s.stored.countP (fun x => x.job.isFinishedBefore a) +
        (s.stored.filter fun x => !x.job.isFinishedBefore a).countP
          fun x => x.job.isFinishedBefore b := by
    rw [List.countP_filter]
    simp only [Job.isFinishedBefore_max, countP_or, Bool.and_comm]
  refine ⟨_, _, _, _, purge_eq healthy a, purge_eq ?_ b, ?_⟩
  · exact healthy
  · rw [purge_eq healthy, hcount]
    simp only [stored, Keyed.values_keepIf, Keyed.keepIf_keepIf, Job.isFinishedBefore_max,
      Bool.not_or]

omit healthy in
/-- What one sweep leaves nothing for is the same sweep. -/
theorem sweep_again {sweep : Millis → Volatile → Except Failure ℕ × Volatile} {a : Millis}
    (twice : ∃ m n s₁ s₂, sweep a s = (.ok m, s₁) ∧ sweep a s₁ = (.ok n, s₂) ∧
      sweep (max a a) s = (.ok (m + n), s₂)) :
    ∃ m s₁, sweep a s = (.ok m, s₁) ∧ sweep a s₁ = (.ok 0, s₁) := by
  obtain ⟨m, n, s₁, s₂, hfirst, hlast, hboth⟩ := twice
  rw [show max a a = a from ite_self a, hfirst] at hboth
  obtain ⟨hcount, rfl⟩ := Prod.mk.inj hboth
  obtain rfl : n = 0 := by
    have := Except.ok.inj hcount
    omega
  exact ⟨m, s₁, hfirst, hlast⟩

/-- A recovery and a clean-up can change places. -/
theorem requeueStale_purge (a b : Millis) :
    ∃ m n s₁ s₂ s₃, requeueStale a s = (.ok m, s₁) ∧ purge b s₁ = (.ok n, s₃) ∧
      purge b s = (.ok n, s₂) ∧ requeueStale a s₂ = (.ok m, s₃) := by
  have hpurged : (s.stored.map (putBack a)).countP (fun x => x.job.isFinishedBefore b) =
      s.stored.countP fun x => x.job.isFinishedBefore b := by
    rw [List.countP_map]
    simp only [Function.comp_def, isFinishedBefore_putBack]
  have hrequeued : (s.stored.filter fun x => !x.job.isFinishedBefore b).countP
      (fun x => x.job.isStale a) = s.stored.countP fun x => x.job.isStale a := by
    rw [List.countP_filter]
    refine List.countP_congr fun x _ => ?_
    rw [Bool.and_eq_true]
    exact ⟨And.left, fun h => ⟨h, by rw [Job.isFinishedBefore_of_isStale h]; rfl⟩⟩
  have hfirst := purge_eq (s := { s with jobs := s.jobs.mapValues (putBack a) }) healthy b
  have hlast := requeueStale_eq
    (s := { s with jobs := s.jobs.keepIf fun x => !x.job.isFinishedBefore b }) healthy a
  rw [stored, Keyed.values_mapValues,
    Keyed.keepIf_mapValues fun x => by rw [isFinishedBefore_putBack]] at hfirst
  rw [stored, Keyed.values_keepIf] at hlast
  refine ⟨_, _, _, _, _, requeueStale_eq healthy a, hpurged ▸ hfirst, purge_eq healthy b,
    hrequeued ▸ hlast⟩

end

end

/-! ## Sweeps of a reachable store -/

section
variable {rules : Rules} {h : List Event} {s : Volatile} {now : Millis}

/-- **Sweeps reach just the jobs that are overdue.**  Take a store that any requests led to, none of
    which broke off while it held the store; let no job in it have been begun or ended at a negative
    time, and the clock show none.  Then for every span, also one that the clock does not hold, a
    recovery puts back the jobs in processing whose claim is longer ago, of which it changes only
    the status and the error; a clean-up forgets the jobs that were completed or failed longer ago;
    each gives the number of these jobs, and nothing else changes.

    One recovery, or clean-up, after the other is one at the later point of the clock, so that the
    second one at the same point finds nothing; and a recovery and a clean-up can change places. -/
theorem sweeps_reach_the_overdue (trace : Trace rules h s) (healthy : s.poisoned = false)
    (started : ∀ x ∈ s.stored, ∀ t, x.job.startedAt = some t → 0 ≤ t.toInt)
    (completed : ∀ x ∈ s.stored, ∀ t, x.job.completedAt = some t → 0 ≤ t.toInt)
    (hn : 0 ≤ now.toInt) :
    (∀ window : Span, recover (store rules) now window s =
      (.ok (s.stored.countP fun x => x.job.IsLost now window), { s with
        jobs := s.jobs.mapValues fun x => if x.job.IsLost now window then
          { x with job := { x.job with status := .pending, error := some Job.requeueNote } }
        else x })) ∧
    (∀ retention : Span, cleanUp (store rules) now retention s =
      (.ok (s.stored.countP fun x => x.job.IsOutdated now retention), { s with
        jobs := s.jobs.keepIf fun x => !decide (x.job.IsOutdated now retention) })) ∧
    (∀ a b, ∃ m n s₁ s₂, requeueStale a s = (.ok m, s₁) ∧ requeueStale b s₁ = (.ok n, s₂) ∧
      requeueStale (max a b) s = (.ok (m + n), s₂)) ∧
    (∀ a b, ∃ m n s₁ s₂, purge a s = (.ok m, s₁) ∧ purge b s₁ = (.ok n, s₂) ∧
      purge (max a b) s = (.ok (m + n), s₂)) ∧
    (∀ a, ∃ m s₁, requeueStale a s = (.ok m, s₁) ∧ requeueStale a s₁ = (.ok 0, s₁)) ∧
    (∀ a, ∃ m s₁, purge a s = (.ok m, s₁) ∧ purge a s₁ = (.ok 0, s₁)) ∧
    ∀ a b, ∃ m n s₁ s₂ s₃, requeueStale a s = (.ok m, s₁) ∧ purge b s₁ = (.ok n, s₃) ∧
      purge b s = (.ok n, s₂) ∧ requeueStale a s₂ = (.ok m, s₃) := by
  have hlost : ∀ window, ∀ x ∈ s.stored,
      x.job.isStale (cutoff now window) = decide (x.job.IsLost now window) := fun window x hx =>
    Job.isStale_cutoff (trace.traced hx).shaped (started x hx) hn window
  have houtdated : ∀ retention, ∀ x ∈ s.stored,
      x.job.isFinishedBefore (cutoff now retention) = decide (x.job.IsOutdated now retention) :=
    fun retention x hx => Job.isFinishedBefore_cutoff (completed x hx) hn retention
  refine ⟨fun window => ?_, fun retention => ?_, requeueStale_requeueStale healthy,
    purge_purge healthy, fun a => sweep_again (requeueStale_requeueStale healthy a a),
    fun a => sweep_again (purge_purge healthy a a), requeueStale_purge healthy⟩
  · show requeueStale (cutoff now window) s = _
    rw [requeueStale_of_healthy healthy, List.countP_congr fun x hx => by rw [hlost window x hx],
      Keyed.mapValues_congr fun x hx => by rw [hlost window x hx]]
    simp only [decide_eq_true_eq]
    rfl
  · show purge (cutoff now retention) s = _
    rw [purge_eq healthy, List.countP_congr fun x hx => by rw [houtdated retention x hx],
      Keyed.keepIf_congr fun x hx => by rw [houtdated retention x hx]]

/-- Two jobs are in processing, one since long ago, and one is completed. -/
def someOverdue : List Call :=
  [⟨0, .enqueue "a" ⟨"q", "t", "o", .empty, {}⟩⟩, ⟨1, .dequeue "w" .any⟩,
    ⟨2, .enqueue "b" ⟨"q", "t", "o", .empty, {}⟩⟩, ⟨2, .dequeue "w" .any⟩, ⟨3, .complete "b" none⟩,
    ⟨8, .enqueue "c" ⟨"q", "t", "o", .empty, {}⟩⟩, ⟨9, .dequeue "w" .any⟩]

/-- At the end of a span a job is not yet overdue, and no job is older than the clock. -/
theorem sweeps_reach_the_overdue_someOverdue :
    (recover (store .default) 10 (.ofMillis 8) (replay .default someOverdue).2).1 = .ok 1 ∧
    (recover (store .default) 10 (.ofMillis 9) (replay .default someOverdue).2).1 = .ok 0 ∧
    (cleanUp (store .default) 10 (.ofMillis 6) (replay .default someOverdue).2).1 = .ok 1 ∧
    (cleanUp (store .default) 10 (.ofMillis 7) (replay .default someOverdue).2).1 = .ok 0 ∧
    (cleanUp (store .default) 10 (.ofSecs (2 ^ 64 - 1)) (replay .default someOverdue).2).1 =
      .ok 0 := by
  have trace := Trace.replay .default someOverdue
  have epoch := trace.sinceEpoch (by decide)
  have hn : 0 ≤ (10 : Millis).toInt := by decide
  obtain ⟨hrecover, hclean, -⟩ :=
    sweeps_reach_the_overdue trace (by decide) epoch.started epoch.completed hn
  rw [hrecover, hrecover, hclean, hclean, hclean]
  decide

/-- The clock went far back between two jobs of a tenant that were counted. -/
def clockWentBack : List Call :=
  [⟨1, .enqueue "a" ⟨"q", "t", "o", .empty, {}⟩⟩, ⟨1, .dequeue "w" .any⟩, ⟨1, .record ⟨"o", "q"⟩⟩,
    ⟨Int64.minValue, .record ⟨"o", "q"⟩⟩]

/-- Once a request has broken off while it held the store, recoveries are refused although a worker
    was lost. -/
theorem poisoned_store_refuses_recoveries :
    Trace .default (replay .default clockWentBack).1 (replay .default clockWentBack).2 ∧
    (∀ x ∈ (replay .default clockWentBack).2.stored, x.job.startedAt.all (0 ≤ ·.toInt) ∧
      x.job.completedAt.all (0 ≤ ·.toInt)) ∧
    (∃ x ∈ (replay .default clockWentBack).2.stored, x.job.IsLost 600002 defaultRecoveryWindow) ∧
    (recover (store .default) 600002 defaultRecoveryWindow (replay .default clockWentBack).2).1 =
      .error (.error (.internal .poisoned)) :=
  ⟨Trace.replay .default clockWentBack, by decide, by decide, by decide⟩

end

end Volatile

end JobQueue
