/-
  Which job is handed out.

  Of the jobs that are due the most urgent is handed out, of these the oldest,
  and of these the one that was inserted first (`Ranked.Precedes`).  No two jobs
  have the same rank, so there is one such job as soon as any is due, and it is
  the same in whatever order the map is enumerated (`next?_eq_some_iff`).  What a
  claim answers and what it leaves behind is `dequeue_hands_out_the_first`.
-/
import JobQueue.Proofs.Store.Trace

namespace JobQueue

/-! ## Due jobs -/

/-- The job waits, its time has come, and its queue is one of those that are served, all of them
    if no names are given. -/
structure Job.IsDue (j : Job) (now : Millis) (queues : QueueSet) : Prop where
  waits : j.status = .pending
  due : j.scheduledAt ≤ now
  served : queues.names = [] ∨ j.queue ∈ queues.names

theorem Job.isDue_iff {j : Job} {now : Millis} {queues : QueueSet} :
    (j.isEligible now && queues.accepts j.queue) = true ↔ j.IsDue now queues := by
  simp only [isEligible, QueueSet.accepts, Bool.and_eq_true, beq_iff_eq, decide_eq_true_eq,
    Bool.or_eq_true, List.isEmpty_iff, List.contains_iff_mem]
  constructor
  · rintro ⟨⟨waits, due⟩, served⟩
    exact ⟨waits, due, served⟩
  · intro h
    exact ⟨⟨h.waits, h.due⟩, h.served⟩

/-- `x` is handed out before `y`: its priority is higher; or they have the same and `x` is older; or
    they are of the same age and `x` was inserted first. -/
def Ranked.Precedes (x y : Ranked) : Prop :=
  y.job.priority < x.job.priority ∨ x.job.priority = y.job.priority ∧
    (x.job.createdAt < y.job.createdAt ∨ x.job.createdAt = y.job.createdAt ∧ x.rank < y.rank)

theorem Ranked.precedes_iff {x y : Ranked} : x.Precedes y ↔ x.place < y.place := by
  simp only [Precedes, place, Prod.Lex.toLex_lt_toLex, Int32.lt_iff_toInt_lt,
    Int64.lt_iff_toInt_lt, ← Int32.toInt_inj, ← Int64.toInt_inj, neg_lt_neg_iff, neg_inj]

theorem succ32?_of_lt {n : Int32} (h : n < Int32.maxValue) : succ32? n = some (n + 1) := by
  have hmax : Int32.maxValue.toInt = 0x7fffffff := by decide
  have hle := Int32.le_toInt n
  rw [Int32.lt_iff_toInt_lt, hmax] at h
  rw [succ32?, fit32?, if_pos ⟨by omega, by omega⟩, Int32.ofInt_add, Int32.ofInt_toInt]
  rfl

namespace Volatile

/-- The job that has to be handed out: it is due, and comes before all others that are. -/
structure IsNext (s : Volatile) (now : Millis) (queues : QueueSet) (x : Ranked) : Prop where
  stored : x ∈ s.stored
  due : x.job.IsDue now queues
  first : ∀ y ∈ s.stored, y.job.IsDue now queues → y ≠ x → x.Precedes y

section
variable {s : Volatile} {now : Millis} {queues : QueueSet} {x : Ranked}

theorem next?_eq_none_iff : s.next? now queues = none ↔ ∀ x ∈ s.stored, ¬ x.job.IsDue now queues := by
  simp only [next?, Ranked.first?_eq_none_iff, List.filter_eq_nil_iff, Job.isDue_iff]

/-- A tidy store turns to the job that has to be handed out. -/
theorem next?_eq_some_iff (hs : s.Tidy) : s.next? now queues = some x ↔ s.IsNext now queues x := by
  have hmem : ∀ y, y ∈ s.stored.filter (fun r => r.job.isEligible now && queues.accepts r.job.queue) ↔
      y ∈ s.stored ∧ y.job.IsDue now queues := fun y => by rw [List.mem_filter, Job.isDue_iff]
  have hapart : Ranked.Distinct
      (s.stored.filter fun r => r.job.isEligible now && queues.accepts r.job.queue) :=
    fun y hy z hz => hs.apart y ((hmem y).1 hy).1 z ((hmem z).1 hz).1
  rw [next?, Ranked.first?_eq_some_iff hapart]
  constructor
  · rintro ⟨hx, hle⟩
    obtain ⟨hst, hdue⟩ := (hmem x).1 hx
    refine ⟨hst, hdue, fun y hy hd hne => Ranked.precedes_iff.2 ?_⟩
    -- no other job has the same place, since none has the same rank
    refine lt_of_le_of_ne (hle y ((hmem y).2 ⟨hy, hd⟩)) fun he => hne ?_
    exact hs.apart y hy x hst (Ranked.rank_eq_of_place he).symm
  · intro h
    refine ⟨(hmem x).2 ⟨h.stored, h.due⟩, fun y hy => ?_⟩
    obtain ⟨hst, hdue⟩ := (hmem y).1 hy
    by_cases he : y = x
    · rw [he]
    · exact (Ranked.precedes_iff.1 (h.first y hst hdue he)).le

theorem IsNext.unique {y : Ranked} (hx : s.IsNext now queues x) (hy : s.IsNext now queues y) :
    y = x := by
  by_contra hne
  have h₁ := Ranked.precedes_iff.1 (hx.first y hy.stored hy.due hne)
  have h₂ := Ranked.precedes_iff.1 (hy.first x hx.stored hx.due (Ne.symm hne))
  exact lt_asymm h₁ h₂

/-! ## Enumerations -/

section
variable {jobs : Keyed String Ranked} (order : jobs.Perm s.jobs)
include order

theorem stored_of_perm : Volatile.stored { s with jobs := jobs } |>.Perm s.stored :=
  order.map Prod.snd

theorem get?_of_perm (hs : s.Tidy) (id : String) : jobs.get? id = s.jobs.get? id := by
  have hd : jobs.Distinct := (order.map Prod.fst).nodup_iff.2 hs.distinct
  ext y
  rw [← Keyed.mem_iff_get? hd, ← Keyed.mem_iff_get? hs.distinct, order.mem_iff]

/-- A tidy store is tidy in whatever order its map is enumerated. -/
theorem Tidy.of_perm (hs : s.Tidy) : Tidy { s with jobs := jobs } where
  distinct := (order.map Prod.fst).nodup_iff.2 hs.distinct
  id_eq h := hs.id_eq (get?_of_perm order hs _ ▸ h)
  apart x hx y hy :=
    hs.apart x ((stored_of_perm order).mem_iff.1 hx) y ((stored_of_perm order).mem_iff.1 hy)
  rank_lt x hx := hs.rank_lt x ((stored_of_perm order).mem_iff.1 hx)

theorem next?_of_perm (hs : s.Tidy) :
    next? now queues { s with jobs := jobs } = s.next? now queues := by
  have hmem := fun y => (stored_of_perm order).mem_iff (a := y)
  ext x
  rw [next?_eq_some_iff (hs.of_perm order), next?_eq_some_iff hs]
  constructor
  · intro h
    exact ⟨(hmem x).1 h.stored, h.due, fun y hy => h.first y ((hmem y).2 hy)⟩
  · intro h
    exact ⟨(hmem x).2 h.stored, h.due, fun y hy => h.first y ((hmem y).1 hy)⟩

end

/-! ## The claim -/

variable {rules : Rules} {h : List Event}

/-- **The first of the due jobs is handed out.**  Take a store that any requests led to, none of
    which broke off while it held the store, and let its map be enumerated in any order.  The ranks
    of its jobs are their places in the order of insertion.  A claim comes back with nothing just
    when no job is due, and changes nothing then.  Otherwise one of the due jobs comes before all
    others, and if one more attempt at it can be counted, the claim hands it out as it is stored
    from then on: in processing, with one more attempt, since now and by this worker; nothing else
    changes. -/
theorem dequeue_hands_out_the_first (trace : Trace rules h s) (healthy : s.poisoned = false)
    {jobs : Keyed String Ranked} (order : jobs.Perm s.jobs) (now : Millis) (worker : String)
    (queues : QueueSet) :
    (∀ x ∈ s.stored, ((submissions h).reverse[x.rank]?).map (·.1) = some x.job.id) ∧
    ((ask rules now (.dequeue worker queues) { s with jobs := jobs }).1 = .ok none ↔
      ∀ x ∈ s.stored, ¬ x.job.IsDue now queues) ∧
    ((∀ x ∈ s.stored, ¬ x.job.IsDue now queues) →
      (ask rules now (.dequeue worker queues) { s with jobs := jobs }).2 = { s with jobs := jobs }) ∧
    ((∃ x ∈ s.stored, x.job.IsDue now queues) → ∃! x, s.IsNext now queues x) ∧
    ∀ x, s.IsNext now queues x → x.job.attempts < Int32.maxValue →
      (x.job.attempts + 1).toInt = x.job.attempts.toInt + 1 ∧
      ∃ jobs', ask rules now (.dequeue worker queues) { s with jobs := jobs } =
          (.ok (some (x.job.taken now worker (x.job.attempts + 1))), { s with jobs := jobs' }) ∧
        jobs'.get? x.job.id = some ⟨x.rank, x.job.taken now worker (x.job.attempts + 1)⟩ ∧
        ∀ id, id ≠ x.job.id → jobs'.get? id = s.jobs.get? id := by
  have hs := trace.tidy
  have hnext : next? now queues { s with jobs := jobs } = s.next? now queues := next?_of_perm order hs
  have healthy' : Volatile.poisoned { s with jobs := jobs } = false := healthy
  have hnone : (∀ x ∈ s.stored, ¬ x.job.IsDue now queues) →
      ask rules now (.dequeue worker queues) { s with jobs := jobs } =
        (.ok none, { s with jobs := jobs }) := by
    intro hno
    exact dequeue_of_none healthy' (hnext.trans (next?_eq_none_iff.2 hno)) worker
  refine ⟨fun x hx => trace.submitted hx, ⟨fun ha => ?_, fun hno => by rw [hnone hno]⟩,
    fun hno => by rw [hnone hno], ?_, fun x hx hroom => ?_⟩
  · refine next?_eq_none_iff.1 (Option.eq_none_iff_forall_ne_some.2 fun x hx => ?_)
    have hask : ask rules now (.dequeue worker queues) { s with jobs := jobs } = _ :=
      dequeue_of_next healthy' (hnext.trans hx) worker
    rw [hask] at ha
    cases hc : succ32? x.job.attempts <;> rw [hc] at ha <;> cases ha
  · rintro ⟨y, hy, hdue⟩
    cases hx : s.next? now queues with
    | none => exact absurd hdue (next?_eq_none_iff.1 hx y hy)
    | some x =>
      have hfirst := (next?_eq_some_iff hs).1 hx
      exact ⟨x, hfirst, fun z hz => hfirst.unique hz⟩
  · have hcount := succ32?_of_lt hroom
    have hask : ask rules now (.dequeue worker queues) { s with jobs := jobs } = _ :=
      dequeue_of_next healthy' (hnext.trans ((next?_eq_some_iff hs).2 hx)) worker
    rw [hcount] at hask
    refine ⟨toInt_of_fit32? hcount, _, hask, ?_, fun id hne => ?_⟩
    · rw [Keyed.get?_put, if_pos rfl]
    · rw [Keyed.get?_put, if_neg (Ne.symm hne), get?_of_perm order hs]

/-- Three jobs are due, two of them of the same priority and age; a fourth one waits for later. -/
def oneIsFirst : List Call :=
  [⟨0, .enqueue "a" ⟨"q", "t", "o", .empty, {}⟩⟩,
    ⟨1, .enqueue "b" ⟨"q", "t", "o", .empty, { priority := 5 }⟩⟩,
    ⟨1, .enqueue "c" ⟨"q", "t", "o", .empty, { priority := 5 }⟩⟩,
    ⟨1, .enqueue "d" ⟨"q", "t", "o", .empty, { priority := 9, schedule := .at 7 }⟩⟩]

/-- The second job is handed out, also if the map is enumerated the other way round. -/
theorem dequeue_hands_out_the_first_backwards :
    ∃ x ∈ (replay .default oneIsFirst).2.stored, x.job.id = "b" ∧
      (replay .default oneIsFirst).2.IsNext 2 ⟨["q"]⟩ x ∧
      (ask .default 2 (.dequeue "w" ⟨["q"]⟩) { (replay .default oneIsFirst).2 with
        jobs := (replay .default oneIsFirst).2.jobs.reverse }).1 =
          .ok (some (x.job.taken 2 "w" (x.job.attempts + 1))) := by
  have trace := Trace.replay .default oneIsFirst
  obtain ⟨x, hx⟩ : ∃ x, (replay .default oneIsFirst).2.next? 2 ⟨["q"]⟩ = some x :=
    Option.isSome_iff_exists.1 (by decide)
  have hfirst := (next?_eq_some_iff trace.tidy).1 hx
  have hb : ((replay .default oneIsFirst).2.next? 2 ⟨["q"]⟩).map
    (fun x => (x.job.id, x.job.attempts)) = some ("b", 0) := by decide
  rw [hx] at hb
  obtain ⟨hid, hatt⟩ := Prod.mk.inj (Option.some.inj hb)
  obtain ⟨-, -, -, -, h⟩ := dequeue_hands_out_the_first trace (by decide)
    (List.reverse_perm (replay .default oneIsFirst).2.jobs) 2 "w" ⟨["q"]⟩
  obtain ⟨-, jobs', hask, -⟩ := h x hfirst (by rw [hatt]; decide)
  exact ⟨x, hfirst.stored, hid, hfirst, by rw [hask]⟩

/-- The counter of a tenant is older than times can be apart when a second job is counted. -/
def tooOldCounter : List Call :=
  [⟨-1, .record ⟨"o", "q"⟩⟩, ⟨-1, .enqueue "a" ⟨"q", "t", "o", .empty, {}⟩⟩,
    ⟨Int64.maxValue, .record ⟨"o", "q"⟩⟩]

/-- Once a request has broken off while it held the store, claims are refused although a job has to
    be handed out. -/
theorem poisoned_store_refuses_claims :
    Trace .default (replay .default tooOldCounter).1 (replay .default tooOldCounter).2 ∧
    (∃ x, (replay .default tooOldCounter).2.IsNext Int64.maxValue .any x ∧
      x.job.attempts < Int32.maxValue) ∧
    (ask .default Int64.maxValue (.dequeue "w" .any) (replay .default tooOldCounter).2).1 =
      .error (.error (.internal .poisoned)) := by
  have trace := Trace.replay .default tooOldCounter
  obtain ⟨x, hx⟩ : ∃ x, (replay .default tooOldCounter).2.next? Int64.maxValue .any = some x :=
    Option.isSome_iff_exists.1 (by decide)
  have hattempts : ((replay .default tooOldCounter).2.next? Int64.maxValue .any).map
    (·.job.attempts) = some 0 := by decide
  rw [hx] at hattempts
  have hzero : x.job.attempts = 0 := Option.some.inj hattempts
  exact ⟨trace, ⟨x, (next?_eq_some_iff trace.tidy).1 hx, by rw [hzero]; decide⟩, by decide⟩

end

end Volatile

end JobQueue
