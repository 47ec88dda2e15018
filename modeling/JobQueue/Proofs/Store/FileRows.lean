/-
  The rows of a database file, request by request.

  A file keeps its rows as a volatile store keeps its jobs (`Volatile.ofRows`),
  so what a request does to the row with an id is a fate of its job, unless the
  storage breaks down and nothing happens (`Answered`).  Of the fates only this
  matters for an attempt that somebody still has in mind: the attempts at a job
  are counted up and never down, so that an attempt that has ended stays so,
  and the row of an attempt under way is either untouched or the attempt has
  ended (`Goes`).  Every request treats every row so, whatever the state of the
  connection (`Table.ask`).
-/
import JobQueue.Proofs.Store.Agreement

namespace JobQueue

/-! ## Rows as a volatile store -/

namespace Volatile

/-- The volatile store that keeps the given rows. -/
def ofRows (rows : List Ranked) : Volatile :=
  { jobs := rows.map fun x => (x.job.id, x), nextRank := Rows.freshRank rows }

variable {rows : List Ranked}

@[simp] theorem stored_ofRows : (ofRows rows).stored = rows := by
  simp [ofRows, stored, Keyed.values, Function.comp_def]

theorem Valid.keys_eq {s : Volatile} (hs : s.Valid) : s.jobs.keys = s.stored.map (·.job.id) := by
  simp only [Keyed.keys, stored, Keyed.values, List.map_map]
  refine List.map_congr_left fun p hp => ?_
  exact (hs.id_eq (Keyed.get?_of_mem hs.distinct (k := p.1) (a := p.2) hp)).symm

theorem mirrored_ofRows (hv : (ofRows rows).Valid) : (ofRows rows).Mirrored rows where
  jobs := by rw [stored_ofRows]
  ascending := by simpa using hv.ascending

/-- Rows that hold the jobs of a well-formed store make a well-formed store. -/
theorem Mirrored.valid_ofRows {s : Volatile} (hs : s.Valid) (hm : s.Mirrored rows) :
    (ofRows rows).Valid where
  distinct := by
    have hkeys : (ofRows rows).jobs.keys = s.jobs.keys := by
      rw [hs.keys_eq]
      calc (ofRows rows).jobs.keys = (rows.map (·.job)).map (·.id) := by
            simp [ofRows, Keyed.keys, Function.comp_def]
        _ = s.stored.map (·.job.id) := by rw [hm.jobs, List.map_map]; rfl
    rw [Keyed.Distinct, hkeys]
    exact hs.distinct
  id_eq := by
    intro id x hx
    obtain ⟨y, -, hy⟩ := List.mem_map.1 (Keyed.mem_of_get? hx)
    obtain ⟨rfl, rfl⟩ := Prod.mk.inj hy
    rfl
  ascending := by rw [stored_ofRows]; exact hm.ascending
  rank_lt := by
    intro x hx
    rw [stored_ofRows] at hx
    exact Sqlite.rank_lt_freshRank hx

theorem byId?_ofRows (hv : (ofRows rows).Valid) (id : String) :
    Rows.byId? id rows = ((ofRows rows).jobs.get? id).map (·.job) :=
  (mirrored_ofRows hv).byId? hv id

/-- A name that no row has is not in use. -/
theorem unknown_ofRows (hv : (ofRows rows).Valid) {r : Request}
    (fresh : ∀ id sub, r = .enqueue id sub → Rows.byId? id rows = none) :
    ∀ id sub, r = .enqueue id sub → (ofRows rows).jobs.get? id = none := by
  intro id sub he
  have := fresh id sub he
  rwa [byId?_ofRows hv, Option.map_eq_none_iff] at this

end Volatile

/-! ## Attempts that have ended -/

/-- The attempt `n` has ended: the job is gone, or in a later attempt, or no longer processed in this
    one. -/
def Ended (n : Int32) (y : Option Job) : Prop :=
  ∀ j, y = some j → n < j.attempts ∨ n = j.attempts ∧ j.status ≠ .processing

theorem Ended.ne {n : Int32} {j : Job} (h : Ended n (some j)) (hb : j.status = .processing) :
    j.attempts ≠ n := by
  rintro rfl
  rcases h j rfl with hlt | ⟨-, hne⟩
  · exact Int32.lt_irrefl hlt
  · exact hne hb

/-- What a request that does not insert it can make of a row. -/
structure Goes (x y : Option Job) : Prop where
  gone : x = none → y = none
  ended : ∀ n, Ended n x → Ended n y
  busy : ∀ j, x = some j → j.status = .processing → y = some j ∨ Ended j.attempts y

theorem Goes.refl (x : Option Job) : Goes x x :=
  ⟨fun h => h, fun _ h => h, fun _ hx _ => Or.inl hx⟩

namespace Volatile

/-- A change that leaves the attempts alone and ends the processing. -/
theorem goes_of_ended {x y : Job} (hb : x.status = .processing) (ha : y.attempts = x.attempts)
    (hy : y.status ≠ .processing) : Goes (some x) (some y) where
  gone h := by cases h
  ended n ho := by
    rintro _ ⟨⟩
    rcases ho x rfl with hlt | ⟨-, hne⟩
    · exact Or.inl (ha ▸ hlt)
    · exact absurd hb hne
  busy := by
    rintro _ ⟨⟩ -
    right
    rintro _ ⟨⟩
    exact Or.inr ⟨ha.symm, hy⟩

theorem goes_of_gone (x : Option Job) : Goes x none where
  gone _ := rfl
  ended n _ j h := by cases h
  busy j _ _ := Or.inr fun j h => by cases h

theorem Fate.goes {rules : Rules} {now : Millis} {id : String} {r : Request}
    {a : Except Failure r.Answer} {x y : Option Ranked} (h : Fate rules now id r a x y)
    (hr : ∀ sub, r ≠ .enqueue id sub) : Goes (x.map (·.job)) (y.map (·.job)) := by
  cases h with
  | same => exact .refl _
  | enqueued sub => exact absurd rfl (hr sub)
  | @claimed worker queues x n pending due count =>
    have hlt : x.job.attempts < n := by
      rw [Int32.lt_iff_toInt_lt, toInt_of_fit32? count]
      omega
    refine ⟨(nomatch ·), fun m ho => ?_, ?_⟩
    · rintro _ ⟨⟩
      left
      rcases ho x.job rfl with hm | ⟨rfl, -⟩
      · exact Int32.lt_trans hm hlt
      · exact hlt
    · rintro _ ⟨⟩ hb
      rw [pending] at hb
      cases hb
  | completed busy => exact goes_of_ended busy rfl (by simp [Job.finished])
  | retried busy => exact goes_of_ended busy rfl (by simp [Job.delayed])
  | failed busy => exact goes_of_ended busy rfl (by simp [Job.givenUp])
  | deleted => exact goes_of_gone _
  | requeued stale => exact goes_of_ended (Job.busy_of_isStale stale) rfl (by simp [Job.requeued])
  | purged => exact goes_of_gone _

end Volatile

/-! ## Rows after a request -/

/-- Did the storage break down?  Otherwise it refused the request. -/
def Failure.isBreakdown (f : Failure) : Bool :=
  match f.kind? with
  | none | some .database | some .internal => true
  | _ => false

def BrokeDown {α : Type} (a : Except Failure α) : Prop := ∃ f, a = .error f ∧ f.isBreakdown = true

/-- The job that a request reports on. -/
def Request.reports? : Request → Option String
  | .complete id _ | .fail id _ => some id
  | _ => none

/-- What becomes of rows with an answered request. -/
inductive Answered (rules : Rules) (now : Millis) (r : Request) (rows : List Ranked) :
    Except Failure r.Answer → List Ranked → Prop where
  /-- Nothing: nobody gets a job, a report is refused, and only a breakdown keeps it from a job that
      is being processed. -/
  | still {a : Except Failure r.Answer} (quiet : r.claimed? a = none)
      (reports : ∀ id, r.reports? = some id → ∃ f, a = .error f ∧
        ∀ j, Rows.byId? id rows = some j → j.status = .processing → f.isBreakdown = true) :
      Answered rules now r rows a rows
  /-- What becomes of the jobs of the volatile store that keeps the rows. -/
  | alike {a : Except Failure r.Answer} {rows' : List Ranked}
      (answer : wordless (Volatile.ask rules now r (Volatile.ofRows rows)).1 = wordless a)
      (state : (Volatile.ask rules now r (Volatile.ofRows rows)).2.Mirrored rows') :
      Answered rules now r rows a rows'

section
variable {rules : Rules} {now : Millis} {r : Request} {rows rows' : List Ranked}
  {a : Except Failure r.Answer}

/-- A request that is neither a claim nor a report. -/
theorem Answered.of_other (claims : ∀ worker queues, r ≠ .dequeue worker queues)
    (reports : r.reports? = none) : Answered rules now r rows a rows := by
  refine .still ?_ fun id hid => ?_
  · cases r with
    | dequeue worker queues => exact absurd rfl (claims worker queues)
    | _ => rfl
  · rw [reports] at hid
    cases hid

theorem Answered.of_brokeDown (h : BrokeDown a) : Answered rules now r rows a rows := by
  obtain ⟨f, rfl, hf⟩ := h
  refine .still ?_ fun _ _ => ⟨f, rfl, fun _ _ _ => hf⟩
  cases r <;> rfl

theorem Answered.goes (h : Answered rules now r rows a rows') (valid : (Volatile.ofRows rows).Valid)
    (fresh : ∀ id sub, r = .enqueue id sub → Rows.byId? id rows = none) (id : String)
    (hid : ∀ sub, r ≠ .enqueue id sub) : Goes (Rows.byId? id rows) (Rows.byId? id rows') := by
  cases h with
  | still => exact .refl _
  | alike _ state =>
    have hn := Volatile.unknown_ofRows valid fresh
    have step : Volatile.Step rules now (Volatile.ofRows rows) r _ _ := Volatile.step_ask rfl
    rw [Volatile.byId?_ofRows valid, state.byId? (valid.step step hn)]
    exact (step.fate valid hn id).goes hid

end

/-! ## Requests on a file -/

namespace Sqlite

/-- The rows of a file that can be written to. -/
structure Table (c : Connection) (rows : List Ranked) (identity : Nat) : Prop where
  writable : c.isReadOnly = false
  jobs : c.database.jobs = some (.current rows identity)
  valid : (Volatile.ofRows rows).Valid

theorem Table.ready {c : Connection} {rows : List Ranked} {identity : Nat}
    (h : Table c rows identity) (ho : c.isOpen = true) : c.Ready rows identity :=
  ⟨ho, h.writable, h.jobs⟩

theorem Connection.ready_table {c : Connection} {identity : Nat} (h : c.Ready [] identity) :
    Table c [] identity where
  writable := h.writable
  jobs := h.jobs
  valid := Volatile.mirrored_empty.valid_ofRows Volatile.valid_empty

/-- A statement that leaves the rows of the jobs alone. -/
theorem Table.perform {α : Type} {c : Connection} {rows : List Ranked} {identity : Nat}
    (h : Table c rows identity) {statement : Database → Except EngineFault (α × Database)}
    (hs : ∀ a d, statement c.database = .ok (a, d) → d.jobs = c.database.jobs) :
    Table (perform statement c).2 rows identity := by
  unfold Sqlite.perform
  split
  · exact h
  · split
    · exact h
    · rename_i a d hd
      exact ⟨h.writable, (hs a d hd).trans h.jobs, h.valid⟩

theorem Table.change_upsertTenant {c : Connection} {rows : List Ranked} {identity : Nat}
    (h : Table c rows identity) (t : Tenant) (new : TenantRow) (set : TenantRow → TenantRow) :
    Table (change (upsertTenant t new set) c).2 rows identity := by
  refine h.perform fun a d hd => ?_
  cases ht : c.database.tenantRows .sqlite with
  | error f => simp [upsertTenant, ht, Except.map, Except.bind] at hd
  | ok tenants =>
    simp only [upsertTenant, ht, Except.map, Except.bind, h.writable, Bool.false_eq_true, if_false,
      Except.ok.injEq, Prod.mk.injEq] at hd
    rw [← hd.2]; rfl

theorem perform_closed {α : Type} (statement : Database → Except EngineFault (α × Database))
    {c : Connection} (h : c.isOpen = false) : perform statement c = (.error (failed .closed), c) := by
  simp [perform, h]

theorem change_closed {α : Type} (statement : Database → Except EngineFault (α × Database))
    {c : Connection} (h : c.isOpen = false) : change statement c = (.error (failed .closed), c) :=
  perform_closed _ h

/-- A closed connection refuses every request about jobs. -/
theorem ask_closed {c : Connection} (h : c.isOpen = false) (rules : Rules) (now : Millis)
    {r : Request} (hr : r.isAboutJobs = true) : ask rules now r c = (.error (failed .closed), c) := by
  cases r with
  | enqueue => simp [ask, enqueue, change_closed _ h]
  | dequeue => simp [ask, dequeue, change_closed _ h]
  | complete => simp [ask, complete, change_closed _ h]
  | fail =>
    simp [ask, fail, planFailure, fetchExisting, fetch, perform_closed _ h, Except.bind]
  | delete => simp [ask, change_closed _ h, Except.map]
  | get => simp [ask, fetchExisting, fetch, perform_closed _ h, Except.bind]
  | list => simp [ask, perform_closed _ h]
  | requeueStale => simp [ask, change_closed _ h]
  | purge => simp [ask, change_closed _ h]
  | stats | canProcess | record | setLimit | close => cases hr

/-- A request that is not about jobs leaves their rows alone. -/
theorem Table.ask_other {c : Connection} {rows : List Ranked} {identity : Nat}
    (h : Table c rows identity) (rules : Rules) (now : Millis) {r : Request}
    (hr : r.isAboutJobs = false) : Table (ask rules now r c).2 rows identity := by
  cases r with
  | stats queue =>
    simp only [Sqlite.ask, stats]
    split
    · exact h
    · refine h.perform fun a d hd => ?_
      simp only [look, Database.jobRows, h.jobs, Except.map, Except.ok.injEq, Prod.mk.injEq] at hd
      rw [← hd.2]
  | canProcess t =>
    simp only [Sqlite.ask, canProcess]
    refine h.perform fun a d hd => ?_
    cases ht : c.database.tenantRows .sqlite with
    | error f => simp [Database.jobRows, h.jobs, ht, Except.map, Except.bind] at hd
    | ok tenants =>
      simp only [Database.jobRows, h.jobs, ht, Except.map, Except.bind, Except.ok.injEq,
        Prod.mk.injEq] at hd
      rw [← hd.2]
  | record t => exact h.change_upsertTenant _ _ _
  | setLimit t limit => exact h.change_upsertTenant _ _ _
  | close => exact ⟨h.writable, h.jobs, h.valid⟩
  | _ => cases hr

/-- A claim that meets a job whose attempts cannot be counted further is refused. -/
theorem dequeue_of_full {c : Connection} {rows : List Ranked} {identity : Nat}
    (h : c.Ready rows identity) {now : Millis} {queues : QueueSet} {x : Ranked}
    (hx : (Rows.inOrder (Rows.isDue now queues) rows).head? = some x)
    (hf : succ32? x.job.attempts = none) (worker : String) :
    dequeue now worker queues c =
      (.error (failed (.reported none "integer out of range")), c) := by
  simp [dequeue, change, perform, h.isOpen, h.jobRows, hx, claimed, hf, Except.bind, Except.map]

/-- **Every request leaves a table behind**, whose rows come from its answer. -/
theorem Table.answered {c : Connection} {rows : List Ranked} {identity : Nat}
    (h : Table c rows identity) (rules : Rules) (now : Millis) {r : Request}
    (fresh : ∀ id sub, r = .enqueue id sub → Rows.byId? id rows = none) :
    ∃ rows' identity', Table (ask rules now r c).2 rows' identity' ∧
      Answered rules now r rows (ask rules now r c).1 rows' := by
  have hm := Volatile.mirrored_ofRows h.valid
  have hn := Volatile.unknown_ofRows h.valid fresh
  have broken : ∀ f, ask rules now r c = (.error (failed f), c) → ∃ rows' identity',
      Table (ask rules now r c).2 rows' identity' ∧
        Answered rules now r rows (ask rules now r c).1 rows' := by
    intro f hf
    rw [hf]
    exact ⟨rows, identity, h, .of_brokeDown ⟨_, rfl, rfl⟩⟩
  cases hr : r.isAboutJobs with
  | false =>
    refine ⟨rows, identity, h.ask_other rules now hr, .of_other ?_ ?_⟩
    · rintro worker queues rfl
      cases hr
    · cases r <;> first | rfl | cases hr
  | true =>
    cases ho : c.isOpen with
    | false => exact broken _ (ask_closed ho rules now hr)
    | true =>
      by_cases hover : (Volatile.ask rules now r (Volatile.ofRows rows)).1 = .error .overflow
      · -- only a claim can overflow, and the file refuses it
        cases r with
        | dequeue worker queues =>
          obtain ⟨x, hx, hf⟩ := Volatile.full_of_overflow hover
          rcases hm.next_cases h.valid now queues with ⟨hv, -⟩ | ⟨x', y, hv, hy, hj⟩
          · rw [hx] at hv; cases hv
          · obtain rfl := Option.some.inj (hx.symm.trans hv)
            exact broken _ (dequeue_of_full (h.ready ho) hy (by rw [hj]; exact hf) worker)
        | _ => exact absurd hover (Volatile.ask_ne_overflow rfl hr (fun _ _ h => by cases h) now)
      · obtain ⟨answer, rows', identity', hc, hm'⟩ :=
          alike_ask rfl ⟨rows, identity, h.ready ho, hm⟩ h.valid hr hn hover
        exact ⟨rows', identity', ⟨hc.writable, hc.jobs,
          hm'.valid_ofRows (h.valid.step (Volatile.step_ask rfl) hn)⟩, .alike answer hm'⟩

/-- The attempts of every row have gone on. -/
theorem Table.ask {c : Connection} {rows : List Ranked} {identity : Nat} (h : Table c rows identity)
    (rules : Rules) (now : Millis) {r : Request}
    (fresh : ∀ id sub, r = .enqueue id sub → Rows.byId? id rows = none) :
    ∃ rows' identity', Table (ask rules now r c).2 rows' identity' ∧
      ∀ id, (∀ sub, r ≠ .enqueue id sub) → Goes (Rows.byId? id rows) (Rows.byId? id rows') := by
  obtain ⟨rows', identity', ht, answered⟩ := h.answered rules now fresh
  exact ⟨rows', identity', ht, answered.goes h.valid fresh⟩

end Sqlite

end JobQueue
