/-
  Runs of the volatile store in which a name may be given again.

  A trace is a history without the condition that the names of new jobs are
  fresh: any requests, in any order and at any readings of the clock.  One name
  may then belong to several jobs, one after the other, so a job is known by its
  rank, the number of submissions that were accepted before it
  (`Trace.submitted`).

  What is kept under a name is a new job, or it is what a `Fate` made of the job
  with the same rank (`Step.origin`).  A property of single jobs is therefore
  proved of all traces by `Trace.each_job`: it holds of a new job, and every
  fate keeps it.
-/
import JobQueue.Proofs.Store.Lifecycle

namespace JobQueue.Volatile

/-- The runs of a store with given rules, each with the state to which it leads. -/
inductive Trace (rules : Rules) : List Event → Volatile → Prop where
  | start : Trace rules [] empty
  | next {h : List Event} {s : Volatile} (past : Trace rules h s) (now : Millis) (r : Request) :
      Trace rules (.ask rules now r s :: h) (ask rules now r s).2

section
variable {rules : Rules} {h : List Event} {s s' : Volatile} {now : Millis} {r : Request}
  {a : Except Failure r.Answer}

theorem History.trace (hist : History rules h s) : Trace rules h s := by
  induction hist with
  | start => exact .start
  | next _ now r _ ih => exact .next ih now r

/-- Any calls make a trace. -/
theorem Trace.replay (rules : Rules) (calls : List Call) :
    Trace rules (replay rules calls).1 (replay rules calls).2 := by
  induction calls using List.reverseRecOn with
  | nil => exact .start
  | append_singleton calls c ih =>
    rw [replay_append]
    exact .next ih c.now c.request

theorem Trace.tidy (trace : Trace rules h s) : s.Tidy := by
  induction trace with
  | start => exact tidy_empty
  | next _ now r ih => exact ih.step (step_ask rfl)

/-- Every event of a trace follows on a trace of its own. -/
theorem Trace.of_suffix (trace : Trace rules h s) {e : Event} {past : List Event}
    (hs : e :: past <:+ h) :
    ∃ before, Trace rules past before ∧ e = .ask rules e.now e.request before := by
  induction trace with
  | start => simp at hs
  | @next h s trace now r ih =>
    rcases List.suffix_cons_iff.1 hs with he | hs
    · obtain ⟨rfl, rfl⟩ := List.cons.inj he
      exact ⟨s, trace, rfl⟩
    · exact ih hs

/-! ## Ranks -/

theorem Step.nextRank (h : Step rules now s r a s') :
    s'.nextRank = s.nextRank + if (r.accepted? a).isSome then 1 else 0 := by
  cases h with
  | still _ idle _ rank => simp [rank, idle]
  | enqueued | claimed | completed | retried | failed | deleted | requeued | purged => rfl

/-- The next rank is the number of submissions so far. -/
theorem Trace.nextRank (trace : Trace rules h s) : s.nextRank = (submissions h).length := by
  induction trace with
  | start => rfl
  | @next h s trace now r ih =>
    have hstep : Step rules now s r (ask rules now r s).1 (ask rules now r s).2 := step_ask rfl
    have he : (Event.ask rules now r s).accepted? = r.accepted? (ask rules now r s).1 := rfl
    rw [hstep.nextRank, ih, submissions, submissions, List.filterMap_cons, he]
    cases r.accepted? (ask rules now r s).1 <;> rfl

/-- No job of an earlier state has the next rank. -/
theorem Trace.rank_lt (trace : Trace rules h s) {e : Event} (he : e ∈ h) {x : Ranked}
    (hx : x ∈ e.before.stored) : x.rank < s.nextRank := by
  induction trace with
  | start => cases he
  | @next h s trace now r ih =>
    have hstep : Step rules now s r (ask rules now r s).1 (ask rules now r s).2 := step_ask rfl
    have hle : s.nextRank ≤ (ask rules now r s).2.nextRank := hstep.nextRank ▸ Nat.le_add_right ..
    rcases List.mem_cons.1 he with rfl | he
    · exact (trace.tidy.rank_lt x hx).trans_le hle
    · exact (ih he).trans_le hle

/-! ## Jobs -/

theorem Fate.rank {id : String} {x y : Ranked} (fate : Fate rules now id r a (some x) (some y)) :
    y.rank = x.rank :=
  fate.identity.rank

/-- What is kept under a name is a new job, or came of what was kept there before. -/
theorem Step.origin (h : Step rules now s r a s') (hs : s.Tidy) {id : String} {y : Ranked}
    (hy : s'.jobs.get? id = some y) :
    (∃ sub, r.accepted? a = some (id, sub) ∧ y = ⟨s.nextRank, sub.toJob id now⟩) ∨
    ∃ x, s.jobs.get? id = some x ∧ Fate rules now id r a (some x) (some y) := by
  by_cases hnew : ∃ sub, r.accepted? a = some (id, sub)
  · obtain ⟨sub, hacc⟩ := hnew
    refine Or.inl ⟨sub, hacc, ?_⟩
    cases h with
    | still _ idle => rw [idle] at hacc; cases hacc
    | enqueued id' sub' =>
      obtain ⟨rfl, rfl⟩ := Prod.mk.inj (Option.some.inj hacc)
      rw [Keyed.get?_put, if_pos rfl] at hy
      exact (Option.some.inj hy).symm
    | claimed | completed | retried | failed | deleted | requeued | purged => cases hacc
  · refine Or.inr ?_
    have fate := h.fate_of_tidy hs id fun sub hacc => absurd ⟨sub, hacc⟩ hnew
    rw [hy] at fate
    cases hx : s.jobs.get? id with
    | some x => exact ⟨x, rfl, hx ▸ fate⟩
    | none =>
      rw [hx] at fate
      cases fate with
      | enqueued sub => exact absurd ⟨sub, rfl⟩ hnew

/-- A property of single jobs holds in every trace if it holds of new jobs and every fate keeps
    it. -/
theorem Trace.each_job {P : List Event → Ranked → Prop}
    (new : ∀ {h s} (e : Event) {id sub}, Trace rules h s → e.before = s →
      e.accepted? = some (id, sub) → P (e :: h) ⟨s.nextRank, sub.toJob id e.now⟩)
    (step : ∀ {h s s' id now r a x y}, Trace rules h s → s.jobs.get? id = some x →
      s'.jobs.get? id = some y → P h x → Fate rules now id r a (some x) (some y) →
      P (⟨now, r, a, s, s'⟩ :: h) y)
    (trace : Trace rules h s) {x : Ranked} (hx : x ∈ s.stored) : P h x := by
  induction trace generalizing x with
  | start => cases hx
  | @next h s past now r ih =>
    have htidy : (ask rules now r s).2.Tidy := past.tidy.step (step_ask rfl)
    have hget := htidy.mem_stored.1 hx
    rcases (step_ask rfl).origin past.tidy hget with ⟨sub, hacc, he⟩ | ⟨w, hw, fate⟩
    · rw [he]
      exact new (.ask rules now r s) past rfl hacc
    · exact step past hw hget (ih (Keyed.mem_values hw)) fate

/-- The jobs of a trace have their ranks from the order in which they were submitted. -/
theorem Trace.submitted (trace : Trace rules h s) {x : Ranked} (hx : x ∈ s.stored) :
    ((submissions h).reverse[x.rank]?).map (·.1) = some x.job.id := by
  refine trace.each_job (P := fun h x => ((submissions h).reverse[x.rank]?).map (·.1) = some x.job.id)
    ?_ ?_ hx
  · intro h s e id sub past _ hacc
    simp [submissions, List.filterMap_cons_some hacc, past.nextRank, Submission.toJob, Job.new]
  · intro h s s' id now r a x y past hx _ ih fate
    have hlt : x.rank < (submissions h).reverse.length := by
      rw [List.length_reverse, ← past.nextRank]
      exact past.tidy.rank_lt x (Keyed.mem_values hx)
    rw [submissions] at ih hlt ⊢
    rw [fate.identity.rank, fate.identity.id, ← ih, List.filterMap_cons]
    split
    · rfl
    · rw [List.reverse_cons, List.getElem?_append_left hlt]

end

end JobQueue.Volatile
