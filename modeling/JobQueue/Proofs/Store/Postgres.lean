/-
  The store in a database server answers as the volatile store does.

  A connection mirrors a volatile store if its rows hold the jobs of the store
  and the next identity is above their ranks.  Every request about jobs whose
  texts are without null characters then gets the same answer from both, and
  they correspond afterwards (`alike_ask`).
-/
import JobQueue.Proofs.Store.Rows
import JobQueue.Store.Postgres

namespace JobQueue.Postgres

/-- Texts that the server takes. -/
def Plain (texts : List String) : Prop := ∀ t ∈ texts, '\x00' ∉ t.toList

theorem checkTexts_ok {texts : List String} (h : Plain texts) : checkTexts texts = .ok () := by
  refine if_neg fun hany => ?_
  obtain ⟨t, ht, hc⟩ := List.any_eq_true.1 hany
  exact h t ht (List.contains_iff_mem.1 hc)

theorem checkTexts_refused {texts : List String} (h : ¬Plain texts) :
    checkTexts texts = .error nullCharacter := by
  refine if_pos ?_
  by_contra hn
  exact h fun t ht hc => hn (List.any_eq_true.2 ⟨t, ht, List.contains_iff_mem.2 hc⟩)

theorem Plain.of_mem {texts texts' : List String} (h : Plain texts) (hs : texts' ⊆ texts) :
    Plain texts' :=
  fun t ht => h t (hs ht)

/-! ## Statements on an open connection -/

section
variable {c : Connection} {rows : List Ranked} {identity : Nat} (h : c.Ready rows identity)
include h

theorem perform_ok {α : Type} {statement : Database → Except EngineFault α × Database} {a : α}
    {d : Database} (hd : statement c.database = (.ok a, d)) :
    perform statement c = (.ok a, { c with database := d }) := by
  simp [perform, h.isOpen, hd]

theorem perform_clean {α : Type} {statement : Database → Except EngineFault (α × Database)} {a : α}
    {d : Database} (hd : statement c.database = .ok (a, d)) :
    perform (clean statement) c = (.ok a, { c with database := d }) :=
  perform_ok h (by simp [clean, hd])

variable {texts : List String} (ht : Plain texts)
include ht

theorem jobRows_ok : jobRows texts c.database = .ok (rows, identity) := by
  simp [jobRows, h.jobRows, checkTexts_ok ht, Except.bind, Except.map]

theorem perform_look {α : Type} (read : List Ranked → α) :
    perform (clean (look texts fun rows => .ok (read rows))) c = (.ok (read rows), c) :=
  perform_clean h (by simp [look, jobRows_ok h ht, Except.bind, Except.map])

theorem perform_updateJobs (having : Job → Bool) (set : Job → Job) :
    perform (clean (updateJobs texts having set)) c = (.ok (Rows.count having rows),
      { c with database := c.database.setJobs (Rows.update having set rows) identity }) :=
  perform_clean h (by simp [updateJobs, jobRows_ok h ht, Except.map])

theorem perform_deleteJobs (having : Job → Bool) :
    perform (clean (deleteJobs texts having)) c = (.ok (Rows.count having rows),
      { c with database := c.database.setJobs (Rows.delete having rows) identity }) :=
  perform_clean h (by simp [deleteJobs, jobRows_ok h ht, Except.map])

omit ht in
theorem fetchExisting_ready {id : String} (ht : Plain [id]) :
    fetchExisting id c =
      match Rows.byId? id rows with
      | none => .error (.error (.notFound (.job id)))
      | some job => .ok job := by
  rw [fetchExisting, fetch, perform_look h ht]
  cases Rows.byId? id rows <;> rfl

end

/-! ## Requests -/

/-- The connection is open, its rows hold the jobs of the store, and the identities that were used
    are below the next one. -/
def Mirrors (s : Volatile) (c : Connection) : Prop :=
  ∃ rows identity, c.Ready rows identity ∧ s.Mirrored rows ∧ ∀ x ∈ rows, x.rank < identity

/-- Only jobs matter. -/
theorem Mirrors.of_jobs {s s' : Volatile} {c : Connection} {d : Database} (hm : Mirrors s c)
    (hj : s'.jobs = s.jobs) (hd : d.jobs = c.database.jobs) : Mirrors s' { c with database := d } := by
  obtain ⟨rows, identity, hready, hmirrored, hbelow⟩ := hm
  exact ⟨rows, identity, hready.of_jobs hd, hmirrored.of_jobs hj, hbelow⟩

section
variable {s : Volatile} {c : Connection} (healthy : s.poisoned = false) (hm : Mirrors s c)
include healthy hm

theorem alike_requeueStale (rules : Rules) (now before : Millis) :
    Alike Mirrors (Volatile.requeueStale before s) (ask rules now (.requeueStale before) c) := by
  obtain ⟨rows, identity, hc, hm, hk⟩ := hm
  rw [Volatile.requeueStale, Volatile.hold_of_ok healthy rfl, ask,
    perform_updateJobs hc (fun t h => by cases h), hm.count, Rows.isLost_eq]
  exact ⟨rfl, _, _, hc.setJobs _ _, hm.update (Volatile.stored_requeued s before),
    Rows.rank_lt_update hk _ _⟩

theorem alike_purge (rules : Rules) (now before : Millis) :
    Alike Mirrors (Volatile.purge before s) (ask rules now (.purge before) c) := by
  obtain ⟨rows, identity, hc, hm, hk⟩ := hm
  rw [Volatile.purge, Volatile.hold_of_ok healthy rfl, ask,
    perform_deleteJobs hc (fun t h => by cases h), hm.count, Rows.isOld_eq]
  exact ⟨rfl, _, _, hc.setJobs _ _, hm.delete (Volatile.stored_purged s before),
    Rows.rank_lt_delete hk _⟩

variable (hs : s.Valid)
include hs

theorem alike_enqueue {id : String} (hn : s.jobs.get? id = none) (now : Millis) {sub : Submission}
    (ht : Plain [id, sub.queue, sub.type, sub.org]) :
    Alike Mirrors (Volatile.enqueue now id sub s) (enqueue now id sub c) := by
  obtain ⟨rows, identity, hc, hm, hk⟩ := hm
  obtain ⟨hi, hm'⟩ := hm.insert hs hn (show (sub.toJob id now).id = id from rfl) hk
  have hins : insertJob (sub.toJob id now) c.database =
      (.ok (sub.toJob id now), c.database.setJobs (rows ++ [⟨identity, sub.toJob id now⟩])
        (identity + 1)) := by
    have hj : jobRows [(sub.toJob id now).id, (sub.toJob id now).queue, (sub.toJob id now).type,
        (sub.toJob id now).org] c.database = .ok (rows, identity) := jobRows_ok hc ht
    simp [insertJob, hj, hi]
  rw [Volatile.enqueue, Volatile.hold_of_ok healthy rfl, enqueue, perform_ok hc hins]
  refine ⟨rfl, _, _, hc.setJobs _ _, hm', fun x hx => ?_⟩
  rcases List.mem_append.1 hx with hx | hx
  · exact Nat.lt_succ_of_lt (hk x hx)
  · rw [List.mem_singleton.1 hx]
    exact Nat.lt_succ_self identity

theorem alike_dequeue {now : Millis} {worker : String} {queues : QueueSet}
    (ht : Plain (worker :: queues.names))
    (ho : (Volatile.dequeue now worker queues s).1 ≠ .error .overflow) :
    Alike Mirrors (Volatile.dequeue now worker queues s) (dequeue now worker queues c) := by
  obtain ⟨rows, identity, hc, hm, hk⟩ := hm
  rcases hm.next_cases hs now queues with ⟨hv, hnext⟩ | ⟨x, y, hv, hy, hj⟩
  · rw [Volatile.dequeue_of_none healthy hv, dequeue,
      perform_clean hc (by simp only [jobRows_ok hc ht, Except.bind, hnext]; rfl)]
    exact ⟨rfl, rows, identity, hc, hm, hk⟩
  · rw [Volatile.dequeue_of_next healthy hv] at ho ⊢
    cases hn : succ32? x.job.attempts with
    | none => simp [hn] at ho
    | some n =>
      have hcl : claimed now worker y.job = .ok (x.job.taken now worker n) := by
        simp [claimed, hj, hn, Job.taken]
      rw [dequeue, perform_clean hc
        (by simp only [jobRows_ok hc ht, Except.bind, hy, hcl, Except.map]; rfl)]
      refine ⟨rfl, _, _, hc.setJobs _ _, hm.updateOne hs (hs.get?_of_next? hv) ?_ ?_ rfl,
        Rows.rank_lt_update hk _ _⟩
      · intro j hj'
        rw [beq_iff_eq.1 hj', hj]
      · simp [hj]

theorem alike_complete (now : Millis) {id : String} (ht : Plain [id]) (result : Option Payload) :
    Alike Mirrors (Volatile.complete now id result s) (complete now id result c) := by
  obtain ⟨rows, identity, hc, hm, hk⟩ := hm
  have hc' := hc.setJobs rows identity
  rcases hm.busy_cases hs id with ⟨hx, hby, hzero⟩ | ⟨x, hx, hby, hb, hzero⟩ | ⟨x, n, hx, hb, hn, hup⟩
  · simp only [Volatile.complete_of_none healthy hx, complete, perform_updateJobs hc ht, hzero,
      Rows.update_eq_self hzero, fetchExisting_ready hc' ht, hby]
    exact ⟨rfl, rows, identity, hc', hm, hk⟩
  · simp only [Volatile.complete_of_idle healthy hx hb, complete, perform_updateJobs hc ht, hzero,
      Rows.update_eq_self hzero, fetchExisting_ready hc' ht, hby]
    exact ⟨rfl, rows, identity, hc', hm, hk⟩
  · simp only [Volatile.complete_of_busy healthy hx hb, complete, perform_updateJobs hc ht, hn]
    exact ⟨rfl, _, _, hc.setJobs _ _, hup (·.finished now result), Rows.rank_lt_update hk _ _⟩

theorem alike_fail (retry : RetryPolicy) (now : Millis) {id message : String}
    (ht : Plain [id, message]) :
    Alike Mirrors (Volatile.fail retry now id message s) (fail retry now id message c) := by
  obtain ⟨rows, identity, hc, hm, hk⟩ := hm
  have hby := hm.byId? hs id
  have hti : Plain [id] := ht.of_mem (by simp)
  cases hx : s.jobs.get? id with
  | none =>
    rw [hx] at hby
    simp only [Volatile.fail_of_none healthy hx, fail, transaction, fetchExisting_ready hc hti, hby]
    exact ⟨rfl, rows, identity, hc, hm, hk⟩
  | some x =>
    rw [hx] at hby
    by_cases hb : x.job.status = .processing
    · have hid : ∀ j : Job, (j.id == id) = true → j.id = id := fun j => beq_iff_eq.1
      have hj : (x.job.id == id) = true := by simp [hs.id_eq hx]
      have hti' : Plain [message, id] := ht.of_mem (by simp)
      simp only [Volatile.fail_of_busy healthy hx hb, fail, transaction, fetchExisting_ready hc hti,
        hby, Option.map_some, hb, ne_eq, not_true, if_false, perform_updateJobs hc hti', Except.map]
      exact ⟨rfl, _, _, hc.setJobs _ _, hm.updateOne hs hx hid hj rfl, Rows.rank_lt_update hk _ _⟩
    · simp only [Volatile.fail_of_idle healthy hx hb, fail, transaction, fetchExisting_ready hc hti,
        hby, Option.map_some, hb, ne_eq, not_false_eq_true, if_true]
      exact ⟨rfl, rows, identity, hc, hm, hk⟩

theorem alike_delete (rules : Rules) (now : Millis) {id : String} (ht : Plain [id]) :
    Alike Mirrors (Volatile.delete id s) (ask rules now (.delete id) c) := by
  obtain ⟨rows, identity, hc, hm, hk⟩ := hm
  rw [Volatile.delete, Volatile.hold_of_ok healthy rfl, ask, perform_deleteJobs hc ht]
  exact ⟨rfl, _, _, hc.setJobs _ _, hm.delete (Volatile.stored_erase hs id),
    Rows.rank_lt_delete hk _⟩

theorem alike_get {id : String} (ht : Plain [id]) :
    Alike Mirrors (Volatile.get id s) (fetchExisting id c, c) := by
  obtain ⟨rows, identity, hc, hm, hk⟩ := hm
  have hby := hm.byId? hs id
  rw [fetchExisting_ready hc ht, hby, Volatile.get, Volatile.hold, healthy, Volatile.find]
  cases s.jobs.get? id with
  | none => exact ⟨rfl, rows, identity, hc, hm, hk⟩
  | some x => exact ⟨rfl, rows, identity, hc, hm, hk⟩

theorem alike_list (rules : Rules) (now : Millis) {filter : Filter}
    (ht : Plain (Request.list filter).texts) :
    Alike Mirrors (Volatile.list filter s) (ask rules now (.list filter) c) := by
  obtain ⟨rows, identity, hc, hm, hk⟩ := hm
  rw [ask, perform_look hc (show Plain (filterTexts filter) from ht), hm.page hs, Volatile.list,
    Volatile.hold_of_ok healthy rfl]
  exact ⟨rfl, rows, identity, hc, hm, hk⟩

/-- **A request about jobs gets the same answer from a database server.** -/
theorem alike_ask {rules : Rules} {now : Millis} {r : Request} (hr : r.isAboutJobs = true)
    (ht : Plain r.texts) (hn : ∀ id sub, r = .enqueue id sub → s.jobs.get? id = none)
    (ho : (Volatile.ask rules now r s).1 ≠ .error .overflow) :
    Alike Mirrors (Volatile.ask rules now r s) (ask rules now r c) := by
  cases r with
  | enqueue id sub => exact alike_enqueue healthy hm hs (hn id sub rfl) now ht
  | dequeue worker queues => exact alike_dequeue healthy hm hs ht ho
  | complete id result => exact alike_complete healthy hm hs now ht result
  | fail id message => exact alike_fail healthy hm hs rules.retry now ht
  | delete id => exact alike_delete healthy hm hs rules now ht
  | get id => exact alike_get healthy hm hs ht
  | list filter => exact alike_list healthy hm hs rules now ht
  | requeueStale before => exact alike_requeueStale healthy hm rules now before
  | purge before => exact alike_purge healthy hm rules now before
  | stats | canProcess | record | setLimit | close => cases hr

end

end JobQueue.Postgres
