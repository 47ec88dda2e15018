/-
  What the statistics of a queue count.

  The statistics count the jobs of a queue that were created within the last
  day, by status, and say how long the completed ones took on the mean: the
  jobs that listings by queue and status show, as far as they are recent
  (`stats_count_what_is_listed`).  A completed job has the times of its claim
  and of its completion, so there is a mean as soon as one is counted.

  The volatile store goes once over the jobs, in the order of its map, and a
  database groups its rows.  Both come to the statistics of a list of jobs
  (`QueueStats.of`), and the order of the list does not matter.
-/
import JobQueue.Proofs.Store.Listing
import JobQueue.Proofs.Store.Reports

namespace JobQueue

/-! ## Statistics of a list -/

namespace Job

/-- The times of the claim and of the completion of a job, if it has both. -/
def run? (j : Job) : Option Run :=
  j.startedAt.bind fun started => j.completedAt.map fun completed => ⟨started, completed⟩

/-- How long a completed job took, in milliseconds. -/
def duration (j : Job) : ℤ := (j.completedAt.getD 0).toInt - (j.startedAt.getD 0).toInt

/-- A completed job has both times. -/
theorem Shaped.times {j : Job} (h : j.Shaped) (done : j.status = .completed) :
    ∃ t u, j.startedAt = some t ∧ j.completedAt = some u := by
  have hdone : j.Done := by simpa only [Shaped, done] using h
  obtain ⟨t, ht, -⟩ := hdone.punctual
  obtain ⟨u, hu⟩ := Option.isSome_iff_exists.1 hdone.finished
  exact ⟨t, u, ht, hu⟩

end Job

namespace QueueStats

/-- The number of jobs with a status. -/
def count (s : QueueStats) : Status → ℕ
  | .pending => s.pending
  | .processing => s.processing
  | .completed => s.completed
  | .failed => s.failed

/-- The statistics of some jobs of a queue. -/
def of (queue : String) (jobs : List Job) : QueueStats where
  queue := queue
  pending := (jobs.filter (·.status == .pending)).length
  processing := (jobs.filter (·.status == .processing)).length
  completed := (jobs.filter (·.status == .completed)).length
  failed := (jobs.filter (·.status == .failed)).length
  runs := (jobs.filter (·.status == .completed)).filterMap Job.run?

/-- Two statistics of one queue together. -/
def plus (s t : QueueStats) : QueueStats where
  queue := s.queue
  pending := s.pending + t.pending
  processing := s.processing + t.processing
  completed := s.completed + t.completed
  failed := s.failed + t.failed
  runs := s.runs ++ t.runs

theorem plus_assoc (s t u : QueueStats) : (s.plus t).plus u = s.plus (t.plus u) := by
  simp [plus, add_assoc]

theorem empty_plus (queue : String) (jobs : List Job) :
    (empty queue).plus (of queue jobs) = of queue jobs := by
  simp [plus, empty, of]

theorem of_cons (queue : String) (j : Job) (jobs : List Job) :
    of queue (j :: jobs) = (of queue [j]).plus (of queue jobs) := by
  cases hj : j.status <;> cases hr : j.run? <;> simp [of, plus, hj, hr, add_comm]

theorem count_of (queue : String) (jobs : List Job) (status : Status) :
    (of queue jobs).count status = jobs.countP (·.status == status) := by
  cases status <;> exact List.countP_eq_length_filter.symm

section
variable {queue : String} {jobs : List Job} (shaped : ∀ j ∈ jobs, j.Shaped)
include shaped

theorem runs_of : (of queue jobs).runs = (jobs.filter (·.status == .completed)).map fun j =>
    ⟨j.startedAt.getD 0, j.completedAt.getD 0⟩ := by
  have hrun : ∀ j ∈ jobs.filter (·.status == .completed),
      j.run? = some ⟨j.startedAt.getD 0, j.completedAt.getD 0⟩ := by
    intro j hj
    obtain ⟨hmem, hdone⟩ := List.mem_filter.1 hj
    obtain ⟨t, u, ht, hu⟩ := (shaped j hmem).times (beq_iff_eq.1 hdone)
    simp [Job.run?, ht, hu]
  exact (List.filterMap_congr hrun).trans (congrFun List.filterMap_eq_map _)

theorem durations_of :
    (of queue jobs).durations = (jobs.filter (·.status == .completed)).map Job.duration := by
  rw [durations, runs_of shaped, List.map_map]
  rfl

theorem length_durations_of : (of queue jobs).durations.length = (of queue jobs).completed := by
  rw [durations_of shaped, List.length_map]
  rfl

/-- There is a mean as soon as one completed job is counted. -/
theorem mean?_of : (of queue jobs).mean? =
    if (of queue jobs).completed = 0 then none
    else some (((jobs.filter (·.status == .completed)).map Job.duration).sum,
      (of queue jobs).completed) := by
  have hlen : (of queue jobs).durations.length = (of queue jobs).completed :=
    length_durations_of shaped
  rw [mean?, hlen, durations_of shaped]
  by_cases hzero : (of queue jobs).completed = 0
  · rw [hzero, durations_of shaped] at hlen
    rw [if_pos hzero, if_pos (by rw [List.isEmpty_iff]; exact List.length_eq_zero_iff.1 hlen)]
  · rw [if_neg hzero, if_neg]
    · rfl
    · rintro hempty
      rw [durations_of shaped, List.isEmpty_iff.1 hempty] at hlen
      exact hzero hlen.symm

end

/-- The order of the jobs does not matter. -/
theorem of_perm {queue : String} {l l' : List Job} (perm : l.Perm l') (shaped : ∀ j ∈ l, j.Shaped) :
    (∀ status, (of queue l).count status = (of queue l').count status) ∧
      (of queue l).mean? = (of queue l').mean? := by
  have hcount : ∀ status, (of queue l).count status = (of queue l').count status := by
    intro status
    rw [count_of, count_of, perm.countP_eq]
  have hcompleted : (of queue l).completed = (of queue l').completed := hcount .completed
  refine ⟨hcount, ?_⟩
  rw [mean?_of shaped, mean?_of fun j hj => shaped j (perm.mem_iff.2 hj), hcompleted,
    ((perm.filter _).map Job.duration).sum_eq]

end QueueStats

/-! ## Counting -/

namespace Volatile

/-- The loop over the jobs comes to their statistics, if no run took longer than times can be
    apart. -/
theorem countJob_eq (stats : QueueStats) (queue : String) {j : Job}
    (fits : j.status = .completed → ∀ t u, j.startedAt = some t → j.completedAt = some u →
      ∃ d, sub? u t = some d) :
    countJob stats j = .ok (stats.plus (.of queue [j])) := by
  unfold countJob
  cases hj : j.status with
  | pending | processing | failed => simp [QueueStats.plus, QueueStats.of, hj]
  | completed =>
    cases ht : j.startedAt with
    | none => simp [QueueStats.plus, QueueStats.of, Job.run?, hj, ht]
    | some t =>
      cases hu : j.completedAt with
      | none => simp [QueueStats.plus, QueueStats.of, Job.run?, hj, ht, hu]
      | some u =>
        obtain ⟨d, hd⟩ := fits hj t u ht hu
        simp [QueueStats.plus, QueueStats.of, Job.run?, hj, ht, hu, hd]

theorem countJobs_eq (queue : String) {l : List Job}
    (fits : ∀ j ∈ l, j.status = .completed → ∀ t u, j.startedAt = some t → j.completedAt = some u →
      ∃ d, sub? u t = some d) (stats : QueueStats) :
    l.foldlM countJob stats = .ok (stats.plus (.of queue l)) := by
  induction l generalizing stats with
  | nil => simp [QueueStats.plus, QueueStats.of]; rfl
  | cons j l ih =>
    rw [List.foldlM_cons, countJob_eq stats queue (fits j List.mem_cons_self),
      QueueStats.of_cons queue j l, ← QueueStats.plus_assoc]
    exact ih (fun j hj => fits j (List.mem_cons_of_mem _ hj)) _

end Volatile

/-! ## The jobs of a store of any kind -/

/-- The jobs in the rows of a database. -/
def Database.rowJobs (d : Database) : List Job :=
  match d.jobs with
  | some (.current rows _) => rows.map (·.job)
  | _ => []

theorem Database.rowJobs_eq {d : Database} {rows : List Ranked} {identity : ℕ}
    (h : d.jobs = some (.current rows identity)) : d.rowJobs = rows.map (·.job) := by
  rw [rowJobs, h]

namespace AnyStore

/-- The jobs in the store, in the order of an enumeration. -/
def jobs : AnyStore → List Job
  | volatile s => s.stored.map (·.job)
  | sqlite c | postgres c => c.database.rowJobs

/-- Was the job created within the last day? -/
def isRecent (now : Millis) (j : Job) : Bool :=
  now.toInt - statsWindow.toInt ≤ j.createdAt.toInt

/-- The jobs of a queue that its statistics are about. -/
def recent (s : AnyStore) (now : Millis) (queue : String) : List Job :=
  s.jobs.filter fun j => j.queue == queue && isRecent now j

/-- The store can work out how long the recent jobs took.  A file does so for any times. -/
def Measures (s : AnyStore) (now : Millis) (queue : String) : Prop :=
  match s with
  | sqlite _ => True
  | volatile _ | postgres _ =>
    ∀ j ∈ s.recent now queue, j.status = .completed → (fit? j.duration).isSome

theorem Orderly.shaped {s : AnyStore} (h : s.Orderly) : ∀ j ∈ s.jobs, j.Shaped := by
  cases h with
  | volatile tidy shaped => exact List.forall_mem_map.2 shaped
  | sqlite table shaped | postgres table shaped =>
    rw [jobs, Database.rowJobs_eq table.jobs]
    exact List.forall_mem_map.2 shaped

/-! ## Listings and statistics -/

/-- The filter that listings by queue and status use. -/
def byStatus (queue : String) (status : Status) : Filter :=
  { queue := some queue, status := some status }

theorem accepts_byStatus (queue : String) (status : Status) (j : Job) :
    (byStatus queue status).accepts j = (j.queue == queue && j.status == status) := by
  rw [← Filter.agrees_eq]
  simp [byStatus]

theorem isRecent_iff {now since : Millis} (hsince : sub? now statsWindow = some since) (j : Job) :
    decide (since ≤ j.createdAt) = isRecent now j := by
  rw [isRecent, ← toInt_of_fit? hsince, decide_eq_decide, Int64.le_iff_toInt_le]

/-- The whole of a listing. -/
theorem perm_newestFirst (rows : List Ranked) (queue : String) (status : Status) :
    ((Ranked.newestFirst (rows.filter fun r => (byStatus queue status).accepts r.job)).map
        (·.job)).Perm
      ((rows.map (·.job)).filter fun j => j.queue == queue && j.status == status) := by
  refine ((List.mergeSort_perm _ _).map _).trans (.of_eq ?_)
  rw [List.filter_map]
  simp only [accepts_byStatus, Function.comp_def]

theorem perm_page (rows : List Ranked) (queue : String) (status : Status) :
    (Rows.page (byStatus queue status) rows).Perm
      ((rows.map (·.job)).filter fun j => j.queue == queue && j.status == status) := by
  simp only [Rows.page, Filter.agrees_eq]
  exact perm_newestFirst rows queue status

/-- A database puts the recent jobs of the queue into an order of its own. -/
theorem perm_stats {now since : Millis} (rows : List Ranked) (queue : String)
    (hsince : sub? now statsWindow = some since) :
    ∃ counted, counted.Perm
        ((rows.map (·.job)).filter fun j => j.queue == queue && isRecent now j) ∧
      Rows.stats queue since rows = .of queue counted := by
  refine ⟨_, ?_, rfl⟩
  simp only [Rows.inOrder, ← isRecent_iff hsince, List.filter_map]
  exact (List.mergeSort_perm _ _).map _

end AnyStore

section
variable {now since : Millis} {queue : String}

theorem Volatile.stats_of_healthy {s : Volatile} (healthy : s.poisoned = false)
    (hsince : sub? now statsWindow = some since)
    (measures : (AnyStore.volatile s).Measures now queue) :
    stats now queue s = (.ok (.of queue ((AnyStore.volatile s).recent now queue)), s) := by
  have hrecent : ((s.stored.map (·.job)).filter fun j => j.queue == queue && since ≤ j.createdAt) =
      (AnyStore.volatile s).recent now queue := by
    simp only [AnyStore.isRecent_iff hsince]
    rfl
  rw [stats, hsince]
  refine hold_of_ok healthy ?_
  dsimp only
  rw [hrecent, countJobs_eq queue, QueueStats.empty_plus]
  · rfl
  · intro j hj hdone t u ht hu
    have hfits := measures j hj hdone
    rw [Job.duration, ht, hu] at hfits
    exact Option.isSome_iff_exists.1 hfits

section
variable {c : Connection} {rows : List Ranked} {identity : ℕ} (hc : c.Ready rows identity)
include hc

theorem Sqlite.stats_ready (queue : String) (hsince : sub? now statsWindow = some since) :
    stats now queue c = (.ok (Rows.stats queue since rows), c) := by
  rw [stats, hsince]
  exact perform_look hc (Rows.stats queue since)

theorem Postgres.stats_ready (plain : Plain [queue]) (hsince : sub? now statsWindow = some since)
    (fits : ∀ d ∈ (Rows.stats queue since rows).durations, (fit? d).isSome) :
    stats now queue c = (.ok (Rows.stats queue since rows), c) := by
  have hchecked : checkedStats queue since rows = .ok (Rows.stats queue since rows) :=
    if_pos (List.all_eq_true.2 fits)
  rw [stats, hsince]
  refine perform_clean hc ?_
  simp only [look, jobRows_ok hc plain, Except.bind, hchecked, Except.map]

end

end

namespace AnyStore

section
variable {s : AnyStore} {queue : String} (h : s.Orderly) (serves : s.Serves [queue]) (rules : Rules)
include h serves

/-- A listing by queue and status shows the jobs of the queue that have the status. -/
theorem ask_byStatus (now : Millis) (status : Status) :
    ∃ listed, ask rules now (.list (byStatus queue status)) s = (.ok listed, s) ∧
      listed.Perm (s.jobs.filter fun j => j.queue == queue && j.status == status) := by
  cases h with
  | @volatile s =>
    have hask := Volatile.list_of_healthy serves (byStatus queue status)
    exact ⟨_, congrArg (Prod.map id volatile) hask, perm_newestFirst s.stored queue status⟩
  | @sqlite c rows identity table =>
    have hask := Sqlite.perform_look (table.ready serves) (Rows.page (byStatus queue status))
    refine ⟨_, congrArg (Prod.map id sqlite) hask, ?_⟩
    rw [jobs, Database.rowJobs_eq table.jobs]
    exact perm_page rows queue status
  | @postgres c rows identity table =>
    have plain : Postgres.Plain [queue] := serves.2
    have hask := Postgres.perform_look (table.ready serves.1) plain
      (Rows.page (byStatus queue status))
    refine ⟨_, congrArg (Prod.map id postgres) hask, ?_⟩
    rw [jobs, Database.rowJobs_eq table.jobs]
    exact perm_page rows queue status

/-- The statistics are those of the recent jobs, in some order. -/
theorem ask_stats {now : Millis} (hn : 0 ≤ now.toInt) (measures : s.Measures now queue) :
    ∃ counted, counted.Perm (s.recent now queue) ∧
      ask rules now (.stats queue) s = (.ok (.of queue counted), s) := by
  obtain ⟨since, hsince⟩ := sub?_of_nonneg hn (show 0 ≤ statsWindow.toInt by decide)
  cases h with
  | @volatile s =>
    have hask := Volatile.stats_of_healthy serves hsince measures
    exact ⟨_, .refl _, congrArg (Prod.map id volatile) hask⟩
  | @sqlite c rows identity table =>
    obtain ⟨counted, hcounted, hstats⟩ := perm_stats rows queue hsince
    have hask := Sqlite.stats_ready (table.ready serves) queue hsince
    rw [hstats] at hask
    have hperm : counted.Perm ((sqlite c).recent now queue) := by
      rwa [recent, jobs, Database.rowJobs_eq table.jobs]
    exact ⟨counted, hperm, congrArg (Prod.map id sqlite) hask⟩
  | @postgres c rows identity table shaped =>
    obtain ⟨counted, hcounted, hstats⟩ := perm_stats rows queue hsince
    have hperm : counted.Perm ((postgres c).recent now queue) := by
      rwa [recent, jobs, Database.rowJobs_eq table.jobs]
    have hshaped : ∀ j ∈ counted, j.Shaped := fun j hj =>
      (Orderly.postgres table shaped).shaped j (List.mem_filter.1 (hperm.mem_iff.1 hj)).1
    have hfits : ∀ d ∈ (QueueStats.of queue counted).durations, (fit? d).isSome := by
      rw [QueueStats.durations_of hshaped]
      rintro d hd
      obtain ⟨j, hj, rfl⟩ := List.mem_map.1 hd
      obtain ⟨hmem, hdone⟩ := List.mem_filter.1 hj
      exact measures j (hperm.mem_iff.1 hmem) (beq_iff_eq.1 hdone)
    have hask := Postgres.stats_ready (table.ready serves.1) serves.2 hsince (hstats ▸ hfits)
    rw [hstats] at hask
    exact ⟨counted, hperm, congrArg (Prod.map id postgres) hask⟩

end

/-- Counting by status and asking whether a job is recent may be done in either order. -/
theorem filter_recent (s : AnyStore) (now : Millis) (queue : String) (status : Status) :
    (s.recent now queue).filter (·.status == status) =
      (s.jobs.filter fun j => j.queue == queue && j.status == status).filter (isRecent now) := by
  simp only [recent, List.filter_filter]
  refine List.filter_congr fun j _ => ?_
  cases j.queue == queue <;> simp [Bool.and_comm]

/-- With times that are not negative every store can work out how long jobs took. -/
theorem measures_of_nonneg {s : AnyStore} (times : ∀ j ∈ s.jobs,
      0 ≤ (j.startedAt.getD 0).toInt ∧ 0 ≤ (j.completedAt.getD 0).toInt)
    (now : Millis) (queue : String) : s.Measures now queue := by
  have hfits : ∀ j ∈ s.recent now queue, j.status = .completed → (fit? j.duration).isSome := by
    intro j hj _
    obtain ⟨started, completed⟩ := times j (List.mem_filter.1 hj).1
    obtain ⟨d, hd⟩ := sub?_of_nonneg completed started
    exact Option.isSome_iff_exists.2 ⟨d, hd⟩
  cases s with
  | sqlite => trivial
  | volatile | postgres => exact hfits

/-- **The statistics count what listings show.**  Take a store of any kind that any requests led to,
    and a time that is not negative.  As long as the store answers requests about the queue and can
    work out how long the recent jobs of the queue took:

    * the count of a status is the number of recent jobs in the listing by queue and status;
    * there is no mean just when no completed job is counted, and otherwise it is the mean of the
      durations of the recent jobs in the listing of the completed ones, which have both times;
    * any store that holds the same jobs, of any kind and in any enumeration, gives the same counts
      and the same mean.

    Neither a listing nor the statistics change the store. -/
theorem stats_count_what_is_listed {rules : Rules} {s : AnyStore} (reached : s.Reached rules)
    {now : Millis} (hn : 0 ≤ now.toInt) {queue : String} (serves : s.Serves [queue])
    (measures : s.Measures now queue) :
    ∃ st, ask rules now (.stats queue) s = (.ok st, s) ∧
      (∀ status, ∃ listed, ask rules now (.list (byStatus queue status)) s = (.ok listed, s) ∧
        st.count status = listed.countP (isRecent now)) ∧
      (∃ done, ask rules now (.list (byStatus queue .completed)) s = (.ok done, s) ∧
        (∀ j ∈ done, j.startedAt.isSome ∧ j.completedAt.isSome) ∧
        st.mean? = if st.completed = 0 then none
          else some (((done.filter (isRecent now)).map Job.duration).sum, st.completed)) ∧
      ∀ (rules' : Rules) (t : AnyStore), t.Orderly → t.jobs.Perm s.jobs →
        t.Serves [queue] → t.Measures now queue →
        ∃ st', ask rules' now (.stats queue) t = (.ok st', t) ∧
          (∀ status, st'.count status = st.count status) ∧ st'.mean? = st.mean? := by
  have h := reached.orderly
  obtain ⟨counted, hcounted, hask⟩ := ask_stats h serves rules hn measures
  have hshaped : ∀ j ∈ counted, j.Shaped := fun j hj =>
    h.shaped j (List.mem_filter.1 (hcounted.mem_iff.1 hj)).1
  -- both are, in some order, the recent jobs of the queue that have the status
  have hlisted : ∀ (status : Status) (listed : List Job),
      listed.Perm (s.jobs.filter fun j => j.queue == queue && j.status == status) →
        (counted.filter (·.status == status)).Perm (listed.filter (isRecent now)) := by
    intro status listed hperm
    refine (hcounted.filter _).trans ?_
    rw [filter_recent]
    exact (hperm.filter _).symm
  refine ⟨_, hask, fun status => ?_, ?_, ?_⟩
  · obtain ⟨listed, hanswer, hperm⟩ := ask_byStatus h serves rules now status
    refine ⟨listed, hanswer, ?_⟩
    rw [QueueStats.count_of, List.countP_eq_length_filter, (hlisted status listed hperm).length_eq,
      List.countP_eq_length_filter]
  · obtain ⟨done, hanswer, hperm⟩ := ask_byStatus h serves rules now .completed
    refine ⟨done, hanswer, fun j hj => ?_, ?_⟩
    · obtain ⟨hmem, hstatus⟩ := List.mem_filter.1 (hperm.mem_iff.1 hj)
      obtain ⟨t, u, ht, hu⟩ := (h.shaped j hmem).times (by simp_all)
      rw [ht, hu]
      exact ⟨rfl, rfl⟩
    · rw [QueueStats.mean?_of hshaped, ((hlisted .completed done hperm).map Job.duration).sum_eq]
  · intro rules' t ht same serves' measures'
    obtain ⟨counted', hcounted', hask'⟩ := ask_stats ht serves' rules' hn measures'
    have hperm : counted'.Perm counted :=
      hcounted'.trans ((same.filter _).trans hcounted.symm)
    exact ⟨_, hask', QueueStats.of_perm hperm fun j hj => hshaped j (hperm.mem_iff.1 hj)⟩

/-- A job that is a day old by the end, and five others of the queue, two of which are completed and
    one of which has failed; besides one of another queue. -/
def busyDay : List Volatile.Call :=
  [⟨0, .enqueue "old" ⟨"q", "t", "o", .empty, {}⟩⟩, ⟨1, .dequeue "w" .any⟩,
    ⟨5, .complete "old" none⟩,
    ⟨10, .enqueue "a" ⟨"q", "t", "o", .empty, {}⟩⟩, ⟨10, .dequeue "w" .any⟩,
    ⟨10, .enqueue "b" ⟨"q", "t", "o", .empty, {}⟩⟩, ⟨20, .dequeue "w" .any⟩,
    ⟨21, .complete "b" none⟩, ⟨28, .complete "a" none⟩,
    ⟨30, .enqueue "c" ⟨"q", "t", "o", .empty, { maxAttempts := 1 }⟩⟩, ⟨31, .dequeue "w" .any⟩,
    ⟨32, .fail "c" "no"⟩,
    ⟨40, .enqueue "d" ⟨"q", "t", "o", .empty, {}⟩⟩, ⟨40, .dequeue "w" .any⟩,
    ⟨50, .enqueue "e" ⟨"q", "t", "o", .empty, {}⟩⟩, ⟨50, .enqueue "f" ⟨"r", "t", "o", .empty, {}⟩⟩]

/-- In memory and on a server the completed jobs of a busy day took nineteen milliseconds together;
    the job that is a day old does not count. -/
theorem stats_count_what_is_listed_busyDay :
    ∃ st st',
      ask .default 86400004 (.stats "q") ((store .default).after busyDay (.volatile .empty)) =
        (.ok st, (store .default).after busyDay (.volatile .empty)) ∧
      ask .default 86400004 (.stats "q") (serverAfter busyDay) = (.ok st', serverAfter busyDay) ∧
      [st.pending, st.processing, st.completed, st.failed] = [1, 1, 2, 1] ∧
      st.mean? = some (19, 2) ∧
      (∀ status, st'.count status = st.count status) ∧ st'.mean? = st.mean? := by
  have reached : Reached .default ((store .default).after busyDay (.volatile .empty)) :=
    (Reached.new .volatile).after busyDay
  have hjobs : (serverAfter busyDay).jobs =
      ((store .default).after busyDay (.volatile .empty)).jobs := by decide +kernel
  have times : ∀ j ∈ ((store .default).after busyDay (.volatile .empty)).jobs,
      0 ≤ (j.startedAt.getD 0).toInt ∧ 0 ≤ (j.completedAt.getD 0).toInt := by decide +kernel
  obtain ⟨st, hask, -, -, hsame⟩ := stats_count_what_is_listed reached
    (show 0 ≤ (86400004 : Millis).toInt by decide) rfl (measures_of_nonneg times 86400004 "q")
  obtain ⟨st', hask', hcounts', hmean'⟩ := hsame .default (serverAfter busyDay)
    (reached_serverAfter busyDay).orderly (.of_eq hjobs)
    (serves_serverAfter ⟨_, rfl, by decide +kernel⟩ (by simp [Postgres.Plain]))
    (measures_of_nonneg (hjobs ▸ times) 86400004 "q")
  have hst : (ask .default 86400004 (.stats "q")
      ((store .default).after busyDay (.volatile .empty))).1 =
        .ok ⟨"q", 1, 1, 2, 1, [⟨10, 28⟩, ⟨20, 21⟩]⟩ := by decide +kernel
  rw [hask] at hst
  cases Except.ok.inj hst
  exact ⟨_, st', hask, hask', rfl, rfl, hcounts', hmean'⟩

/-- A job that was claimed before the epoch is completed at the end of time. -/
def longestRun : List Volatile.Call :=
  [⟨-1, .enqueue "a" ⟨"q", "t", "o", .empty, {}⟩⟩, ⟨-1, .dequeue "w" .any⟩,
    ⟨Int64.maxValue, .complete "a" none⟩]

/-- In memory and on a server the difference of these times does not fit.  A listing shows the job,
    which is recent, but there are no statistics, and in memory none ever after.  A file that was
    closed has none, and a server none of a queue whose name it does not take. -/
theorem too_long_run_stops_statistics :
    Reached .default ((store .default).after longestRun (.volatile .empty)) ∧
    ((ask .default 0 (.list (byStatus "q" .completed))
      ((store .default).after longestRun (.volatile .empty))).1.map fun listed =>
        listed.countP (isRecent 0)) = .ok 1 ∧
    (ask .default 0 (.stats "q") ((store .default).after longestRun (.volatile .empty))).1 =
      .error .overflow ∧
    (ask .default 0 (.stats "q") ((store .default).after
      (longestRun ++ [⟨0, .stats "q"⟩]) (.volatile .empty))).1 =
        .error (.error (.internal .poisoned)) ∧
    (ask .default 0 (.stats "q") ((store .default).after longestRun
      (.postgres (freshConnection .postgres)))).1 =
        .error (Postgres.failed Postgres.outOfRange) ∧
    (ask .default 0 (.stats "q") ((store .default).after [⟨0, .close⟩]
      (.sqlite (freshConnection .sqlite)))).1.isOk = false ∧
    (ask .default 0 (.stats "\x00") (.postgres (freshConnection .postgres))).1.isOk = false := by
  refine ⟨(Reached.new .volatile).after longestRun, ?_⟩
  decide +kernel

end AnyStore

end JobQueue
