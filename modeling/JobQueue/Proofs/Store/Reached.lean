/-
  Stores of any kind, whatever was asked of them.

  A store is reached if it came from one without jobs by any requests, in any
  order and at any readings of the clock (`AnyStore.Reached`): also such that
  give a name twice, that break off, or that come after the store was closed.
  What holds all the same is that every job is kept under its own name, a
  database having one row for a name, and that it has the form that belongs to
  its status (`AnyStore.Orderly`).

  A name that is given twice is where the kinds of stores differ: in memory the
  new job takes the place of the old one, and a database refuses it.
-/
import JobQueue.Proofs.Store.Shape
import JobQueue.Proofs.Worker.Keeping

namespace JobQueue

/-! ## Forms of jobs -/

namespace Volatile

/-- Whatever a request does under a name, what is kept there has the form of its status. -/
theorem Fate.shaped {rules : Rules} {now : Millis} {id : String} {r : Request}
    {a : Except Failure r.Answer} {x y : Option Ranked} (fate : Fate rules now id r a x y)
    (h : ∀ w, x = some w → w.job.Shaped) : ∀ w, y = some w → w.job.Shaped := by
  rintro w rfl
  cases fate with
  | same => exact h w rfl
  | enqueued sub rank => exact Job.shaped_new sub id now
  | claimed pending due count => exact (h _ rfl).taken pending due count _
  | completed busy => exact (h _ rfl).finished busy now _
  | retried busy => exact (h _ rfl).delayed busy ..
  | failed busy spent => exact (h _ rfl).givenUp busy spent now _
  | requeued stale => exact (h _ rfl).requeued (Job.busy_of_isStale stale)

end Volatile

theorem Answered.shaped {rules : Rules} {now : Millis} {r : Request} {rows rows' : List Ranked}
    {a : Except Failure r.Answer} (h : Answered rules now r rows a rows')
    (valid : (Volatile.ofRows rows).Valid)
    (fresh : ∀ id sub, r = .enqueue id sub → Rows.byId? id rows = none)
    (shaped : ∀ x ∈ rows, x.job.Shaped) : ∀ x ∈ rows', x.job.Shaped := by
  cases h with
  | still => exact shaped
  | alike _ state =>
    have hn := Volatile.unknown_ofRows valid fresh
    have step : Volatile.Step rules now (Volatile.ofRows rows) r _ _ := Volatile.step_ask rfl
    intro x hx
    obtain ⟨y, hy, he⟩ := List.mem_map.1 (state.jobs ▸ List.mem_map_of_mem hx)
    have hget := (valid.step step hn).mem_stored.1 hy
    have fate := step.fate valid hn y.job.id
    rw [hget] at fate
    rw [← he]
    refine fate.shaped (fun w hw => shaped w ?_) y rfl
    have hmem : w ∈ (Volatile.ofRows rows).stored := Keyed.mem_values hw
    rwa [Volatile.stored_ofRows] at hmem

/-! ## Names that are given twice -/

/-- A name that is in use, or one that is not. -/
theorem fresh_or_taken (rows : List Ranked) (r : Request) :
    (∀ id sub, r = .enqueue id sub → Rows.byId? id rows = none) ∨
      ∃ id sub j, r = .enqueue id sub ∧ Rows.byId? id rows = some j := by
  cases r with
  | enqueue id sub =>
    cases hj : Rows.byId? id rows with
    | none => exact .inl fun id' sub' he => by cases he; exact hj
    | some j => exact .inr ⟨id, sub, j, rfl, hj⟩
  | _ => exact .inl fun _ _ he => by cases he

theorem Rows.insert?_of_byId? {rows : List Ranked} {id : String} {j : Job}
    (hj : Rows.byId? id rows = some j) (rank : Nat) {job : Job} (hid : job.id = id) :
    Rows.insert? rank job rows = none := by
  obtain ⟨x, hx, -⟩ := Option.map_eq_some_iff.1 hj
  refine if_pos (List.any_eq_true.2 ⟨x, List.mem_of_find?_eq_some hx, ?_⟩)
  simpa [hid] using List.find?_some hx

namespace Sqlite

variable {c : Connection} {rows : List Ranked} {identity : Nat}

/-- A file refuses a name that is in use. -/
theorem enqueue_of_taken (h : c.Ready rows identity) {id : String} {j : Job}
    (hj : Rows.byId? id rows = some j) (now : Millis) (sub : Submission) :
    enqueue now id sub c = (.error (failed (Engine.sqlite.keyTwice jobsTable "id")), c) := by
  simp [enqueue, change, perform, h.isOpen, h.jobRows, Except.bind,
    Rows.insert?_of_byId? hj _ (show (sub.toJob id now).id = id from rfl)]

/-- **Every request leaves a table of jobs in shape behind.** -/
theorem Table.next (h : Table c rows identity) (shaped : ∀ x ∈ rows, x.job.Shaped) (rules : Rules)
    (now : Millis) (r : Request) :
    ∃ rows' identity', Table (Sqlite.ask rules now r c).2 rows' identity' ∧
      ∀ x ∈ rows', x.job.Shaped := by
  rcases fresh_or_taken rows r with fresh | ⟨id, sub, j, rfl, hj⟩
  · obtain ⟨rows', identity', table, answered⟩ := h.answered rules now fresh
    exact ⟨rows', identity', table, answered.shaped h.valid fresh shaped⟩
  · refine ⟨rows, identity, ?_, shaped⟩
    cases ho : c.isOpen with
    | false => rw [ask_closed ho rules now rfl]; exact h
    | true => rw [Sqlite.ask, enqueue_of_taken (h.ready ho) hj]; exact h

end Sqlite

namespace Postgres

variable {c : Connection} {rows : List Ranked} {identity : Nat}

/-- A server refuses a name that is in use, and uses up an identity. -/
theorem enqueue_of_taken (h : c.Ready rows identity) {id : String} {j : Job}
    (hj : Rows.byId? id rows = some j) (now : Millis) {sub : Submission}
    (plain : Plain [id, sub.queue, sub.type, sub.org]) :
    enqueue now id sub c = (.error (failed (Engine.postgres.keyTwice jobsTable "id")),
      { c with database := c.database.setJobs rows (identity + 1) }) := by
  have hrows : jobRows [(sub.toJob id now).id, (sub.toJob id now).queue, (sub.toJob id now).type,
      (sub.toJob id now).org] c.database = .ok (rows, identity) := jobRows_ok h plain
  have hinsert : insertJob (sub.toJob id now) c.database =
      (.error (Engine.postgres.keyTwice jobsTable "id"),
        c.database.setJobs rows (identity + 1)) := by
    simp [insertJob, hrows, Rows.insert?_of_byId? hj _ (show (sub.toJob id now).id = id from rfl)]
  simp [enqueue, perform, h.isOpen, hinsert]

/-- **Every request leaves a table of jobs in shape behind.** -/
theorem Table.next (h : Table c rows identity) (shaped : ∀ x ∈ rows, x.job.Shaped) (rules : Rules)
    (now : Millis) (r : Request) :
    ∃ rows' identity', Table (Postgres.ask rules now r c).2 rows' identity' ∧
      ∀ x ∈ rows', x.job.Shaped := by
  rcases fresh_or_taken rows r with fresh | ⟨id, sub, j, rfl, hj⟩
  · obtain ⟨rows', identity', table, answered⟩ := h.answered rules now fresh
    exact ⟨rows', identity', table, answered.shaped h.valid fresh shaped⟩
  · cases ho : c.isOpen with
    | false =>
      rw [ask_closed ho rules now rfl]
      exact ⟨rows, identity, h, shaped⟩
    | true =>
      by_cases plain : Plain (Request.enqueue id sub).texts
      · rw [Postgres.ask, enqueue_of_taken (h.ready ho) hj now plain]
        exact ⟨rows, identity + 1, ⟨h.writable, rfl, fun x hx => Nat.lt_succ_of_lt (h.below x hx),
          h.valid⟩, shaped⟩
      · obtain ⟨f, hf, -⟩ := answered_of_not_plain (h.ready ho) rules now rfl plain
        rw [hf]
        exact ⟨rows, identity, h, shaped⟩

end Postgres

/-! ## Stores of any kind -/

namespace AnyStore

/-- A store of some kind without jobs. -/
inductive New : AnyStore → Prop where
  | volatile : New (.volatile .empty)
  | sqlite {c : Connection} {identity : Nat} (ready : c.Ready [] identity) : New (.sqlite c)
  | postgres {c : Connection} {identity : Nat} (ready : c.Ready [] identity) : New (.postgres c)

/-- The stores to which requests lead. -/
inductive Reached (rules : Rules) : AnyStore → Prop where
  | new {s : AnyStore} (new : s.New) : Reached rules s
  | ask {s : AnyStore} (past : Reached rules s) (now : Millis) (r : Request) :
      Reached rules (ask rules now r s).2

/-- Every job is kept under its own name, and has the form that belongs to its status. -/
inductive Orderly : AnyStore → Prop where
  | volatile {s : Volatile} (tidy : s.Tidy) (shaped : ∀ x ∈ s.stored, x.job.Shaped) :
      Orderly (.volatile s)
  | sqlite {c : Connection} {rows : List Ranked} {identity : Nat}
      (table : Sqlite.Table c rows identity) (shaped : ∀ x ∈ rows, x.job.Shaped) :
      Orderly (.sqlite c)
  | postgres {c : Connection} {rows : List Ranked} {identity : Nat}
      (table : Postgres.Table c rows identity) (shaped : ∀ x ∈ rows, x.job.Shaped) :
      Orderly (.postgres c)

theorem New.orderly {s : AnyStore} (h : s.New) : s.Orderly := by
  cases h with
  | volatile => exact .volatile Volatile.tidy_empty nofun
  | sqlite ready => exact .sqlite (Sqlite.Connection.ready_table ready) nofun
  | postgres ready => exact .postgres (Postgres.Connection.ready_table ready) nofun

/-- Every request leaves an orderly store behind. -/
theorem Orderly.ask {s : AnyStore} (h : s.Orderly) (rules : Rules) (now : Millis) (r : Request) :
    (AnyStore.ask rules now r s).2.Orderly := by
  cases h with
  | @volatile s tidy shaped =>
    have step : Volatile.Step rules now s r (Volatile.ask rules now r s).1
      (Volatile.ask rules now r s).2 := Volatile.step_ask rfl
    have tidy' := tidy.step step
    refine .volatile tidy' fun y hy => ?_
    rcases step.origin tidy (tidy'.mem_stored.1 hy) with ⟨sub, -, he⟩ | ⟨x, hx, fate⟩
    · rw [he]
      exact Job.shaped_new sub _ now
    · exact fate.shaped (fun w hw => Option.some.inj hw ▸ shaped x (Keyed.mem_values hx)) y rfl
  | sqlite table shaped =>
    obtain ⟨rows', identity', table', shaped'⟩ := table.next shaped rules now r
    exact .sqlite table' shaped'
  | postgres table shaped =>
    obtain ⟨rows', identity', table', shaped'⟩ := table.next shaped rules now r
    exact .postgres table' shaped'

/-- **Every store that requests lead to is orderly.** -/
theorem Reached.orderly {rules : Rules} {s : AnyStore} (h : s.Reached rules) : s.Orderly := by
  induction h with
  | new new => exact new.orderly
  | ask past now r ih => exact ih.ask rules now r

theorem Reached.after {rules : Rules} {s : AnyStore} (h : s.Reached rules)
    (calls : List Volatile.Call) : Reached rules ((store rules).after calls s) := by
  induction calls using List.reverseRecOn with
  | nil => exact h
  | append_singleton calls c ih =>
    rw [Store.after_append]
    exact ih.ask c.now c.request

/-- The runs of the volatile store are among them. -/
theorem Reached.of_trace {rules : Rules} {h : List Volatile.Event} {s : Volatile}
    (trace : Volatile.Trace rules h s) : Reached rules (.volatile s) := by
  induction trace with
  | start => exact .new .volatile
  | next past now r ih => exact ih.ask now r

end AnyStore

end JobQueue
