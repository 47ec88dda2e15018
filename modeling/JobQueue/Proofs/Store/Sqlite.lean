/-
  The store in a database file answers as the volatile store does.

  A connection mirrors a volatile store if it is open and its rows hold the
  jobs of the store.  Every request about jobs then gets the same answer from
  both, and they correspond afterwards (`alike_ask`).
-/
import JobQueue.Proofs.Store.Rows
import JobQueue.Store.Sqlite

namespace JobQueue.Sqlite

/-! ## Statements on an open connection -/

section
variable {c : Connection} {rows : List Ranked} {identity : Nat} (h : c.Ready rows identity)
include h

theorem perform_ok {α : Type} {statement : Database → Except EngineFault (α × Database)} {a : α}
    {d : Database} (hd : statement c.database = .ok (a, d)) :
    perform statement c = (.ok a, { c with database := d }) := by
  simp [perform, h.isOpen, hd]

theorem change_ok {α : Type} {statement : Database → Except EngineFault (α × Database)} {a : α}
    {d : Database} (hd : statement c.database = .ok (a, d)) :
    change statement c = (.ok a, { c with database := d }) := by
  refine perform_ok h ?_
  simp [hd, h.writable, Except.bind]

theorem perform_look {α : Type} (read : List Ranked → α) :
    perform (look read) c = (.ok (read rows), c) :=
  perform_ok h (by simp [look, h.jobRows, Except.map])

theorem change_updateJobs (having : Job → Bool) (set : Job → Job) :
    change (updateJobs having set) c = (.ok (Rows.count having rows),
      { c with database := c.database.setJobs (Rows.update having set rows) identity }) :=
  change_ok h (by simp [updateJobs, h.jobRows, Except.map])

theorem change_deleteJobs (having : Job → Bool) :
    change (deleteJobs having) c = (.ok (Rows.count having rows),
      { c with database := c.database.setJobs (Rows.delete having rows) identity }) :=
  change_ok h (by simp [deleteJobs, h.jobRows, Except.map])

theorem fetchExisting_ready (id : String) :
    fetchExisting id c =
      match Rows.byId? id rows with
      | none => .error (.error (.notFound (.job id)))
      | some job => .ok job := by
  rw [fetchExisting, fetch, perform_look h]
  cases Rows.byId? id rows <;> rfl

end

/-! ## Requests -/

/-- The connection is open, and its rows hold the jobs of the store. -/
def Mirrors (s : Volatile) (c : Connection) : Prop :=
  ∃ rows identity, c.Ready rows identity ∧ s.Mirrored rows

/-- Only jobs matter. -/
theorem Mirrors.of_jobs {s s' : Volatile} {c : Connection} {d : Database} (hm : Mirrors s c)
    (hj : s'.jobs = s.jobs) (hd : d.jobs = c.database.jobs) : Mirrors s' { c with database := d } := by
  obtain ⟨rows, identity, hready, hmirrored⟩ := hm
  exact ⟨rows, identity, hready.of_jobs hd, hmirrored.of_jobs hj⟩

theorem rank_lt_freshRank {rows : List Ranked} {x : Ranked} (hx : x ∈ rows) :
    x.rank < Rows.freshRank rows := by
  unfold Rows.freshRank
  induction rows with
  | nil => cases hx
  | cons y l ih =>
    simp only [List.map_cons, List.foldr_cons]
    rcases List.mem_cons.1 hx with rfl | hx
    · omega
    · have := ih hx
      omega

section
variable {s : Volatile} {c : Connection} (healthy : s.poisoned = false) (hm : Mirrors s c)
include healthy hm

theorem alike_requeueStale (rules : Rules) (now before : Millis) :
    Alike Mirrors (Volatile.requeueStale before s) (ask rules now (.requeueStale before) c) := by
  obtain ⟨rows, identity, hc, hm⟩ := hm
  rw [Volatile.requeueStale, Volatile.hold_of_ok healthy rfl, ask, change_updateJobs hc, hm.count,
    Rows.isLost_eq]
  exact ⟨rfl, _, _, hc.setJobs _ _, hm.update (Volatile.stored_requeued s before)⟩

theorem alike_purge (rules : Rules) (now before : Millis) :
    Alike Mirrors (Volatile.purge before s) (ask rules now (.purge before) c) := by
  obtain ⟨rows, identity, hc, hm⟩ := hm
  rw [Volatile.purge, Volatile.hold_of_ok healthy rfl, ask, change_deleteJobs hc, hm.count,
    Rows.isOld_eq]
  exact ⟨rfl, _, _, hc.setJobs _ _, hm.delete (Volatile.stored_purged s before)⟩

variable (hs : s.Valid)
include hs

theorem alike_enqueue {id : String} (hn : s.jobs.get? id = none) (now : Millis) (sub : Submission) :
    Alike Mirrors (Volatile.enqueue now id sub s) (enqueue now id sub c) := by
  obtain ⟨rows, identity, hc, hm⟩ := hm
  obtain ⟨hi, hm'⟩ := hm.insert hs hn (show (sub.toJob id now).id = id from rfl) fun _ => rank_lt_freshRank
  rw [Volatile.enqueue, Volatile.hold_of_ok healthy rfl, enqueue,
    change_ok hc (by simp only [hc.jobRows, Except.bind, hi]; rfl)]
  exact ⟨rfl, _, _, hc.setJobs _ _, hm'⟩

theorem alike_dequeue {now : Millis} {worker : String} {queues : QueueSet}
    (ho : (Volatile.dequeue now worker queues s).1 ≠ .error .overflow) :
    Alike Mirrors (Volatile.dequeue now worker queues s) (dequeue now worker queues c) := by
  obtain ⟨rows, identity, hc, hm⟩ := hm
  rcases hm.next_cases hs now queues with ⟨hv, hnext⟩ | ⟨x, y, hv, hy, hj⟩
  · rw [Volatile.dequeue_of_none healthy hv, dequeue,
      change_ok hc (by simp only [hc.jobRows, Except.bind, hnext]; rfl)]
    exact ⟨rfl, rows, identity, hc, hm⟩
  · rw [Volatile.dequeue_of_next healthy hv] at ho ⊢
    cases hn : succ32? x.job.attempts with
    | none => simp [hn] at ho
    | some n =>
      have hcl : claimed now worker y.job = .ok (x.job.taken now worker n) := by
        simp [claimed, hj, hn, Job.taken]
      rw [dequeue, change_ok hc (by simp only [hc.jobRows, Except.bind, hy, hcl, Except.map]; rfl)]
      refine ⟨rfl, _, _, hc.setJobs _ _, hm.updateOne hs (hs.get?_of_next? hv) ?_ ?_ rfl⟩
      · intro j hj'
        simp only [Bool.and_eq_true, beq_iff_eq] at hj'
        rw [hj'.1, hj]
      · simp [hj, (Volatile.pending_of_next? hv).1]

theorem alike_complete (now : Millis) (id : String) (result : Option Payload) :
    Alike Mirrors (Volatile.complete now id result s) (complete now id result c) := by
  obtain ⟨rows, identity, hc, hm⟩ := hm
  have hc' := hc.setJobs rows identity
  rcases hm.busy_cases hs id with ⟨hx, hby, hzero⟩ | ⟨x, hx, hby, hb, hzero⟩ | ⟨x, n, hx, hb, hn, hup⟩
  · simp only [Volatile.complete_of_none healthy hx, complete, change_updateJobs hc, hzero,
      Rows.update_eq_self hzero, refusal, fetchExisting_ready hc', hby]
    exact ⟨rfl, rows, identity, hc', hm⟩
  · simp only [Volatile.complete_of_idle healthy hx hb, complete, change_updateJobs hc, hzero,
      Rows.update_eq_self hzero, refusal, fetchExisting_ready hc', hby]
    exact ⟨rfl, rows, identity, hc', hm⟩
  · simp only [Volatile.complete_of_busy healthy hx hb, complete, change_updateJobs hc, hn]
    exact ⟨rfl, _, _, hc.setJobs _ _, hup (·.finished now result)⟩

theorem alike_fail (retry : RetryPolicy) (now : Millis) (id message : String) :
    Alike Mirrors (Volatile.fail retry now id message s) (fail retry now id message c) := by
  obtain ⟨rows, identity, hc, hm⟩ := hm
  have hby := hm.byId? hs id
  cases hx : s.jobs.get? id with
  | none =>
    rw [hx] at hby
    simp only [Volatile.fail_of_none healthy hx, fail, planFailure, fetchExisting_ready hc, hby]
    exact ⟨rfl, rows, identity, hc, hm⟩
  | some x =>
    rw [hx] at hby
    by_cases hb : x.job.status = .processing
    · have hid : ∀ j : Job, (j.id == id && j.status == .processing && j.attempts == x.job.attempts) =
          true → j.id = id := by
        intro j hj
        simp only [Bool.and_eq_true, beq_iff_eq] at hj
        exact hj.1.1
      have hj : (x.job.id == id && x.job.status == .processing && x.job.attempts == x.job.attempts) =
          true := by simp [hs.id_eq hx, hb]
      obtain ⟨n, hn⟩ := Nat.exists_eq_succ_of_ne_zero (hm.count_ne_zero hx
        (p := fun j => j.id == id && j.status == .processing && j.attempts == x.job.attempts) hj)
      simp only [Volatile.fail_of_busy healthy hx hb, fail, planFailure, fetchExisting_ready hc, hby,
        Option.map_some, Except.bind, hb, if_true, PlannedFailure.carryOut, change_updateJobs hc, hn]
      exact ⟨rfl, _, _, hc.setJobs _ _, hm.updateOne hs hx hid hj rfl⟩
    · simp only [Volatile.fail_of_idle healthy hx hb, fail, planFailure, fetchExisting_ready hc, hby,
        Option.map_some, Except.bind, hb, if_false]
      exact ⟨rfl, rows, identity, hc, hm⟩

theorem alike_delete (rules : Rules) (now : Millis) (id : String) :
    Alike Mirrors (Volatile.delete id s) (ask rules now (.delete id) c) := by
  obtain ⟨rows, identity, hc, hm⟩ := hm
  rw [Volatile.delete, Volatile.hold_of_ok healthy rfl, ask, change_deleteJobs hc]
  exact ⟨rfl, _, _, hc.setJobs _ _, hm.delete (Volatile.stored_erase hs id)⟩

theorem alike_get (id : String) :
    Alike Mirrors (Volatile.get id s) (fetchExisting id c, c) := by
  obtain ⟨rows, identity, hc, hm⟩ := hm
  have hby := hm.byId? hs id
  rw [fetchExisting_ready hc, hby, Volatile.get, Volatile.hold, healthy, Volatile.find]
  cases s.jobs.get? id with
  | none => exact ⟨rfl, rows, identity, hc, hm⟩
  | some x => exact ⟨rfl, rows, identity, hc, hm⟩

theorem alike_list (filter : Filter) :
    Alike Mirrors (Volatile.list filter s) (perform (look (Rows.page filter)) c) := by
  obtain ⟨rows, identity, hc, hm⟩ := hm
  rw [perform_look hc, hm.page hs, Volatile.list, Volatile.hold_of_ok healthy rfl]
  exact ⟨rfl, rows, identity, hc, hm⟩

/-- **A request about jobs gets the same answer from a database file.** -/
theorem alike_ask {rules : Rules} {now : Millis} {r : Request} (hr : r.isAboutJobs = true)
    (hn : ∀ id sub, r = .enqueue id sub → s.jobs.get? id = none)
    (ho : (Volatile.ask rules now r s).1 ≠ .error .overflow) :
    Alike Mirrors (Volatile.ask rules now r s) (ask rules now r c) := by
  cases r with
  | enqueue id sub => exact alike_enqueue healthy hm hs (hn id sub rfl) now sub
  | dequeue worker queues => exact alike_dequeue healthy hm hs ho
  | complete id result => exact alike_complete healthy hm hs now id result
  | fail id message => exact alike_fail healthy hm hs rules.retry now id message
  | delete id => exact alike_delete healthy hm hs rules now id
  | get id => exact alike_get healthy hm hs id
  | list filter => exact alike_list healthy hm hs filter
  | requeueStale before => exact alike_requeueStale healthy hm rules now before
  | purge before => exact alike_purge healthy hm rules now before
  | stats | canProcess | record | setLimit | close => cases hr

end

end JobQueue.Sqlite
