/-
  The rows of a table that holds the jobs of a volatile store.

  `Mirrored` says that a list of rows holds the same jobs in the same order of
  insertion; the ranks themselves may differ.  What the statements on rows see
  then is what the store sees, and when they change the rows as the store
  changes its jobs, the rows still hold the jobs of the store.
-/
import JobQueue.Proofs.Store.Step
import JobQueue.Store.Database

namespace JobQueue

/-! ## Conditions of statements -/

theorem Rows.isLost_eq (before : Millis) : Rows.isLost before = fun j => j.isStale before := by
  funext j
  unfold Rows.isLost Job.isStale
  cases j.startedAt <;> rfl

theorem Rows.isOld_eq (before : Millis) : Rows.isOld before = fun j => j.isFinishedBefore before := by
  funext j
  have : (j.status == .completed || j.status == .failed) = j.status.isTerminal := by
    cases j.status <;> rfl
  unfold Rows.isOld Job.isFinishedBefore
  rw [this]
  cases j.completedAt <;> rfl

/-- A change of no row changes nothing. -/
theorem Rows.update_eq_self {having : Job → Bool} {rows : List Ranked} (h : Rows.count having rows = 0)
    (set : Job → Job) : Rows.update having set rows = rows := by
  rw [Rows.count, List.countP_eq_zero] at h
  refine (List.map_congr_left fun x hx => if_neg (h x hx)).trans (List.map_id rows)

theorem Rows.rank_lt_update {k : Nat} {rows : List Ranked} (h : ∀ x ∈ rows, x.rank < k)
    (having : Job → Bool) (set : Job → Job) : ∀ x ∈ Rows.update having set rows, x.rank < k := by
  intro x hx
  obtain ⟨y, hy, rfl⟩ := List.mem_map.1 hx
  split
  · exact h y hy
  · exact h y hy

theorem Rows.rank_lt_delete {k : Nat} {rows : List Ranked} (h : ∀ x ∈ rows, x.rank < k)
    (having : Job → Bool) : ∀ x ∈ Rows.delete having rows, x.rank < k :=
  fun x hx => h x (List.mem_filter.1 hx).1

theorem Filter.page_map {α β : Type} (f : Filter) (g : α → β) (xs : List α) :
    (f.page xs).map g = f.page (xs.map g) := by
  unfold Filter.page
  cases f.pageLimit <;> simp [List.map_take, List.map_drop]

/-- The condition of a listing is that of the filter. -/
theorem Filter.agrees_eq (f : Filter) (j : Job) :
    (f.queue.all (j.queue == ·) && f.type.all (j.type == ·) && f.org.all (j.org == ·) &&
      f.status.all (j.status == ·)) = f.accepts j := by
  have h {α : Type} [BEq α] [LawfulBEq α] (o : Option α) (a : α) :
      o.all (a == ·) = o.all (· == a) := by
    cases o with
    | none => rfl
    | some b => exact BEq.comm
  simp only [Filter.accepts, h]

namespace Volatile

/-- The rows hold the jobs of the store, in the order of insertion. -/
structure Mirrored (s : Volatile) (rows : List Ranked) : Prop where
  jobs : rows.map (·.job) = s.stored.map (·.job)
  ascending : Ranked.Ascending rows

theorem mirrored_empty : Mirrored empty [] where
  jobs := rfl
  ascending := List.Pairwise.nil

/-- Only the jobs of a store matter. -/
theorem Mirrored.of_jobs {s s' : Volatile} {rows : List Ranked} (hm : s.Mirrored rows)
    (hj : s'.jobs = s.jobs) : s'.Mirrored rows where
  jobs := hm.jobs.trans (by rw [stored, stored, hj])
  ascending := hm.ascending

/-! ## Rows with a property -/

section
variable {s : Volatile} {rows : List Ranked} (hm : s.Mirrored rows)
include hm

theorem Mirrored.count (having : Job → Bool) :
    Rows.count having rows = s.stored.countP fun x => having x.job := by
  have h : ∀ l : List Ranked, l.countP (fun x => having x.job) = (l.map (·.job)).countP having := by
    intro l
    rw [List.countP_map]; rfl
  rw [Rows.count, h, hm.jobs, ← h]

theorem Mirrored.count_ne_zero {id : String} {x : Ranked} {p : Job → Bool}
    (hx : s.jobs.get? id = some x) (hj : p x.job = true) : Rows.count p rows ≠ 0 := by
  rw [hm.count]
  exact (List.countP_pos_iff.2 ⟨x, Keyed.mem_values hx, hj⟩).ne'

theorem Mirrored.filter (p : Job → Bool) :
    (rows.filter fun x => p x.job).map (·.job) = (s.stored.filter fun x => p x.job).map (·.job) := by
  have h : ∀ l : List Ranked,
      (l.filter fun x => p x.job).map (·.job) = (l.map (·.job)).filter p := by
    intro l
    rw [List.filter_map]; rfl
  rw [h, h, hm.jobs]

/-- Rows are changed as the jobs of the store are. -/
theorem Mirrored.update {s' : Volatile} {having : Job → Bool} {set : Job → Job}
    (hst : s'.stored.map (·.job) =
      (s.stored.map (·.job)).map fun j => if having j then set j else j) :
    s'.Mirrored (Rows.update having set rows) where
  jobs := by
    rw [hst, ← hm.jobs, Rows.update, List.map_map, List.map_map]
    refine List.map_congr_left fun x _ => ?_
    by_cases h : having x.job = true <;> simp [h]
  ascending := by
    refine ascending_of_map hm.ascending ?_
    rw [Rows.update, List.map_map]
    refine List.map_congr_left fun x _ => ?_
    by_cases h : having x.job = true <;> simp [h]

/-- Rows are deleted as the jobs of the store are. -/
theorem Mirrored.delete {s' : Volatile} {having : Job → Bool}
    (hst : s'.stored = s.stored.filter fun x => !having x.job) :
    s'.Mirrored (Rows.delete having rows) where
  jobs := by
    rw [hst]
    exact hm.filter fun j => !having j
  ascending := hm.ascending.filter _

end

/-! ## Rows of one job -/

section
variable {s : Volatile} {rows : List Ranked} (hs : s.Valid) (hm : s.Mirrored rows)
include hs

theorem Valid.find?_stored (id : String) :
    s.stored.find? (·.job.id == id) = s.jobs.get? id := by
  cases hx : s.jobs.get? id with
  | none =>
    rw [List.find?_eq_none]
    intro y hy he
    rw [hs.mem_stored, beq_iff_eq.1 he, hx] at hy
    cases hy
  | some x =>
    have hmem : x ∈ s.stored := Keyed.mem_values hx
    cases hf : s.stored.find? (·.job.id == id) with
    | none =>
      have := List.find?_eq_none.1 hf x hmem
      simp [hs.id_eq hx] at this
    | some y =>
      have hy := hs.mem_stored.1 (List.mem_of_find?_eq_some hf)
      have he : y.job.id = id := by simpa using List.find?_some hf
      rw [← hx, ← hy, he]

include hm

theorem Mirrored.byId? (id : String) : Rows.byId? id rows = (s.jobs.get? id).map (·.job) := by
  have h : ∀ l : List Ranked, Rows.byId? id l = (l.map (·.job)).find? (·.id == id) := by
    intro l
    rw [List.find?_map]; rfl
  rw [h, hm.jobs, ← h, Rows.byId?, hs.find?_stored]

/-- No row has a property that excludes what is kept under the one name it allows. -/
theorem Mirrored.count_eq_zero {id : String} {p : Job → Bool}
    (hid : ∀ j, p j = true → j.id = id)
    (hno : ∀ x, s.jobs.get? id = some x → p x.job = false) : Rows.count p rows = 0 := by
  rw [hm.count, List.countP_eq_zero]
  intro y hy hj
  have he := hid y.job hj
  rw [hno y (he ▸ hs.mem_stored.1 hy)] at hj
  cases hj

/-- The row that comes first in the order of handing out has the job that the store hands out. -/
theorem Mirrored.next_cases (now : Millis) (queues : QueueSet) :
    (s.next? now queues = none ∧ (Rows.inOrder (Rows.isDue now queues) rows).head? = none) ∨
    ∃ x y, s.next? now queues = some x ∧
      (Rows.inOrder (Rows.isDue now queues) rows).head? = some y ∧ y.job = x.job := by
  have hr := hm.ascending.filter fun x => Rows.isDue now queues x.job
  have hnext : (Rows.inOrder (Rows.isDue now queues) rows).head?.map (·.job) =
      (s.next? now queues).map (·.job) := by
    rw [Rows.inOrder, Ranked.head?_inOrder hr.distinct]
    exact Ranked.map_first? (hm.filter _) hr (hs.ascending.filter _)
  cases hv : s.next? now queues with
  | none =>
    rw [hv, Option.map_none, Option.map_eq_none_iff] at hnext
    exact Or.inl ⟨rfl, hnext⟩
  | some x =>
    rw [hv, Option.map_some, Option.map_eq_some_iff] at hnext
    obtain ⟨y, hy, hj⟩ := hnext
    exact Or.inr ⟨x, y, rfl, hy, hj⟩

theorem Mirrored.page (f : Filter) : Rows.page f rows =
    (f.page (Ranked.newestFirst (s.stored.filter fun x => f.accepts x.job))).map (·.job) := by
  unfold Rows.page
  simp only [Filter.agrees_eq, Filter.page_map]
  rw [Ranked.map_newestFirst (hm.filter _) (hm.ascending.filter _) (hs.ascending.filter _)]

/-- The row of one job is changed as the job is. -/
theorem Mirrored.updateOne {id : String} {x : Ranked} (hx : s.jobs.get? id = some x) {job : Job}
    {having : Job → Bool} {set : Job → Job} (hid : ∀ j, having j = true → j.id = id)
    (hj : having x.job = true) (hset : set x.job = job) :
    (s.update id x job).Mirrored (Rows.update having set rows) := by
  refine hm.update ?_
  rw [hs.stored_update hx, List.map_map, List.map_map]
  refine List.map_congr_left fun y hy => ?_
  by_cases he : y.job.id = id
  · rw [hs.mem_stored, he, hx] at hy
    simp [← Option.some.inj hy, hs.id_eq hx, hj, hset]
  · have hf : having y.job = false := Bool.eq_false_iff.2 fun h => he (hid _ h)
    simp [he, hf]

/-- A new job gets a row behind all others. -/
theorem Mirrored.insert {id : String} (hn : s.jobs.get? id = none) {job : Job} (hj : job.id = id)
    {rank : Nat} (hr : ∀ x ∈ rows, x.rank < rank) :
    Rows.insert? rank job rows = some (rows ++ [⟨rank, job⟩]) ∧
    Mirrored { s with jobs := s.jobs.put id ⟨s.nextRank, job⟩, nextRank := s.nextRank + 1 }
      (rows ++ [⟨rank, job⟩]) := by
  have hnew : rows.any (·.job.id == job.id) = false := by
    have := hm.byId? hs id
    rw [hn, Option.map_none, Rows.byId?, Option.map_eq_none_iff, List.find?_eq_none] at this
    rw [List.any_eq_false, hj]
    exact this
  refine ⟨by simp [Rows.insert?, hnew], ⟨?_, ?_⟩⟩
  · simp [stored, Keyed.put_new _ hn, Keyed.values, hm.jobs]
  · refine List.pairwise_append.2 ⟨hm.ascending, by simp, fun x hx y hy => ?_⟩
    rw [List.mem_singleton.1 hy]
    exact hr x hx

/-- A report on a job meets no row, the row of a job that is not being processed, or that of one that
    is and then changes with it. -/
theorem Mirrored.busy_cases (id : String) :
    let busy (j : Job) : Bool := j.id == id && j.status == .processing
    (s.jobs.get? id = none ∧ Rows.byId? id rows = none ∧ Rows.count busy rows = 0) ∨
    (∃ x, s.jobs.get? id = some x ∧ Rows.byId? id rows = some x.job ∧
      x.job.status ≠ .processing ∧ Rows.count busy rows = 0) ∨
    (∃ x n, s.jobs.get? id = some x ∧ x.job.status = .processing ∧
      Rows.count busy rows = n + 1 ∧
      ∀ set : Job → Job, (s.update id x (set x.job)).Mirrored (Rows.update busy set rows)) := by
  intro busy
  have hby := hm.byId? hs id
  have hid : ∀ j, busy j = true → j.id = id := by
    intro j hj
    simp only [busy, Bool.and_eq_true, beq_iff_eq] at hj
    exact hj.1
  cases hx : s.jobs.get? id with
  | none =>
    refine Or.inl ⟨rfl, by rw [hby, hx]; rfl, hm.count_eq_zero hs hid fun x h => ?_⟩
    rw [hx] at h; cases h
  | some x =>
    by_cases hb : x.job.status = .processing
    · have hj : busy x.job = true := by simp [busy, hs.id_eq hx, hb]
      obtain ⟨n, hn⟩ := Nat.exists_eq_succ_of_ne_zero (hm.count_ne_zero hx hj)
      exact Or.inr (Or.inr ⟨x, n, rfl, hb, hn, fun set => hm.updateOne hs hx hid hj rfl⟩)
    · refine Or.inr (Or.inl ⟨x, rfl, by rw [hby, hx]; rfl, hb, hm.count_eq_zero hs hid fun y h => ?_⟩)
      obtain rfl := Option.some.inj (hx.symm.trans h)
      simp [busy, hb]

end

theorem stored_requeued (s : Volatile) (before : Millis) :
    (stored { s with jobs := s.jobs.mapValues fun x =>
      if x.job.isStale before then { x with job := x.job.requeued } else x }).map (·.job) =
    (s.stored.map (·.job)).map fun j => if j.isStale before then j.requeued else j := by
  rw [stored, Keyed.values_mapValues, List.map_map, List.map_map]
  refine List.map_congr_left fun x _ => ?_
  by_cases h : x.job.isStale before = true <;> simp [h]

theorem stored_purged (s : Volatile) (before : Millis) :
    stored { s with jobs := s.jobs.keepIf fun x => !x.job.isFinishedBefore before } =
      s.stored.filter fun x => !x.job.isFinishedBefore before :=
  Keyed.values_keepIf (fun x : Ranked => !x.job.isFinishedBefore before) s.jobs

theorem stored_erase {s : Volatile} (hs : s.Valid) (id : String) :
    stored { s with jobs := s.jobs.erase id } = s.stored.filter fun x => !(x.job.id == id) := by
  rw [stored, hs.erase_eq, Keyed.values_keepIf]
  refine List.filter_congr fun x _ => ?_
  by_cases h : x.job.id = id <;> simp [h]

end Volatile

/-! ## Connections -/

/-- An open connection to a database whose jobs are kept in the given rows. -/
structure Connection.Ready (c : Connection) (rows : List Ranked) (identity : Nat) : Prop where
  isOpen : c.isOpen = true
  writable : c.isReadOnly = false
  jobs : c.database.jobs = some (.current rows identity)

namespace Connection.Ready

variable {c : Connection} {rows : List Ranked} {identity : Nat} (h : c.Ready rows identity)
include h

theorem of_jobs {d : Database} (hd : d.jobs = c.database.jobs) :
    Connection.Ready { c with database := d } rows identity :=
  ⟨h.isOpen, h.writable, hd.trans h.jobs⟩

theorem jobRows (e : Engine) : c.database.jobRows e = .ok (rows, identity) := by
  rw [Database.jobRows, h.jobs]

theorem setJobs (rows' : List Ranked) (identity' : Nat) :
    Ready { c with database := c.database.setJobs rows' identity' } rows' identity' :=
  ⟨h.isOpen, h.writable, rfl⟩

end Connection.Ready

/-! ## Answers -/

/-- The kind of an error; an overflow has none. -/
def Failure.kind? : Failure → Option ErrorKind
  | .error e => some e.kind
  | .overflow => none

/-- An answer without the words of an error. -/
def wordless {α : Type} (a : Except Failure α) : Except (Option ErrorKind) α := a.mapError Failure.kind?

theorem wordless_ne {α : Type} {a : Except Failure α} (h : a ≠ .error .overflow) :
    wordless a ≠ .error none := by
  cases a with
  | ok a => intro he; cases he
  | error f =>
    cases f with
    | error e => intro he; cases he
    | overflow => exact absurd rfl h

/-- Two stores answer alike, up to the words of errors, and their states correspond. -/
structure Alike {σ τ α : Type} (corr : σ → τ → Prop) (v : Except Failure α × σ)
    (w : Except Failure α × τ) : Prop where
  answer : wordless v.1 = wordless w.1
  state : corr v.2 w.2

/-- The texts of a request. -/
def Request.texts : Request → List String
  | .enqueue id sub => [id, sub.queue, sub.type, sub.org]
  | .dequeue worker queues => worker :: queues.names
  | .complete id _ | .delete id | .get id => [id]
  | .fail id message => [id, message]
  | .list f => f.queue.toList ++ f.type.toList ++ f.org.toList
  | .stats queue => [queue]
  | .canProcess t | .record t | .setLimit t _ => [t.org, t.queue]
  | .requeueStale _ | .purge _ | .close => []

/-- Is the request one about jobs? -/
def Request.isAboutJobs : Request → Bool
  | .enqueue .. | .dequeue .. | .complete .. | .fail .. | .delete _ | .get _ | .list _
  | .requeueStale _ | .purge _ => true
  | .stats _ | .canProcess _ | .record _ | .setLimit .. | .close => false

end JobQueue
