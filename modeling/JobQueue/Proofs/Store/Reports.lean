/-
  What becomes of the report on an attempt.

  A report names a job and depends on its status alone: there is no such job,
  or it is not being processed, and the report is refused with the one error or
  the other; or it is, and the report is taken (`AnyStore.Reported`).  A refusal
  leaves the store as it was, row for row, and a report that is taken changes
  one job and nothing else.

  Each kind of store decides this in its own way.  The volatile store looks at
  the job it holds.  A database changes the row if it still is in processing,
  and looks again when it changed none; but `fail` looks first, and on a server
  in a transaction of which nothing remains when it is refused.
-/
import JobQueue.Proofs.Store.NextJob
import JobQueue.Proofs.Store.Reached
import JobQueue.Proofs.Store.Tenants

namespace JobQueue

/-! ## Rows of one job -/

/-- The property by which a report on an attempt under way finds its row. -/
def isBusy (id : String) (j : Job) : Bool := j.id == id && j.status == .processing

theorem id_of_isBusy {id : String} {j : Job} (h : isBusy id j = true) : j.id = id := by
  simp only [isBusy, Bool.and_eq_true, beq_iff_eq] at h
  exact h.1

namespace Rows

variable {rows : List Ranked} {id : String} {p : Job → Bool}

theorem id_of_byId? {j : Job} (hj : byId? id rows = some j) : j.id = id := by
  obtain ⟨x, hx, rfl⟩ := Option.map_eq_some_iff.1 hj
  simpa using List.find?_some hx

theorem isBusy_of_byId? {j : Job} (hj : byId? id rows = some j) (hb : j.status = .processing) :
    isBusy id j = true := by
  simp [isBusy, id_of_byId? hj, hb]

theorem exists_count_eq_succ {j : Job} (hj : byId? id rows = some j) (hp : p j = true) :
    ∃ n, count p rows = n + 1 := by
  obtain ⟨x, hx, rfl⟩ := Option.map_eq_some_iff.1 hj
  have hpos : 0 < count p rows := List.countP_pos_iff.2 ⟨x, List.mem_of_find?_eq_some hx, hp⟩
  exact Nat.exists_eq_succ_of_ne_zero hpos.ne'

/-- No row has a property that excludes the job with the one id it allows. -/
theorem count_eq_zero (valid : (Volatile.ofRows rows).Valid) (hid : ∀ j, p j = true → j.id = id)
    (hno : ∀ j, byId? id rows = some j → p j = false) : count p rows = 0 :=
  (Volatile.mirrored_ofRows valid).count_eq_zero valid hid fun x hx =>
    hno x.job (by rw [Volatile.byId?_ofRows valid, hx]; rfl)

theorem count_isBusy (valid : (Volatile.ofRows rows).Valid)
    (idle : ∀ j, byId? id rows = some j → j.status ≠ .processing) : count (isBusy id) rows = 0 :=
  count_eq_zero valid (fun _ => id_of_isBusy) fun j hj => by simp [isBusy, idle j hj]

/-- A change of the rows with one id leaves those with other ids alone. -/
theorem byId?_update (hid : ∀ j, p j = true → j.id = id) {set : Job → Job}
    (hset : ∀ j, (set j).id = j.id) {id' : String} (hne : id' ≠ id) (rows : List Ranked) :
    byId? id' (update p set rows) = byId? id' rows := by
  have hsame : ∀ x : Ranked, (if p x.job then { x with job := set x.job } else x).job.id =
      x.job.id := by
    intro x
    split
    · exact hset x.job
    · rfl
  rw [byId?, update, List.find?_map, Option.map_map, byId?]
  have hfind : (fun x : Ranked => x.job.id == id') ∘
      (fun x : Ranked => if p x.job then { x with job := set x.job } else x) =
      fun x => x.job.id == id' := by
    funext x
    simp only [Function.comp_apply, hsame]
  rw [hfind]
  cases hx : rows.find? (·.job.id == id') with
  | none => rfl
  | some x =>
    have hp : p x.job = false := by
      have he : x.job.id = id' := by simpa using List.find?_some hx
      exact Bool.eq_false_iff.2 fun h => hne (he ▸ hid _ h)
    simp [hp]

end Rows

theorem Connection.Ready.setJobs_self {c : Connection} {rows : List Ranked} {identity : Nat}
    (h : c.Ready rows identity) : { c with database := c.database.setJobs rows identity } = c := by
  rw [Database.setJobs, ← h.jobs]

/-! ## Outcomes -/

namespace AnyStore

/-- The windows and the limits are the same. -/
def SameTenants : AnyStore → AnyStore → Prop
  | volatile s, volatile s' => s'.windows = s.windows ∧ s'.limits = s.limits
  | sqlite c, sqlite c' | postgres c, postgres c' => c'.database.tenants = c.database.tenants
  | _, _ => False

/-- The store answers requests with the given texts: it is not poisoned, or its database is open and
    takes the texts. -/
def Serves : AnyStore → List String → Prop
  | volatile s, _ => s.poisoned = false
  | sqlite c, _ => c.isOpen = true
  | postgres c, texts => c.isOpen = true ∧ Postgres.Plain texts

/-- What a report on a job can come to. -/
inductive Reported {α : Type} (s : AnyStore) (id : String) :
    Except Failure α → AnyStore → Prop where
  | unknown (unknown : s.job? id = none) : Reported s id (.error (.error (.notFound (.job id)))) s
  | idle {j : Job} (found : s.job? id = some j) (idle : j.status ≠ .processing) (why : Conflict) :
      Reported s id (.error (.error (.invalidState why))) s
  | taken {j : Job} {v : α} {s' : AnyStore} (found : s.job? id = some j)
      (busy : j.status = .processing) (others : ∀ id', id' ≠ id → s'.job? id' = s.job? id')
      (tenants : s.SameTenants s') :
      Reported s id (.ok v) s'

end AnyStore

/-! ## The volatile store -/

namespace Volatile

variable {s : Volatile}

theorem job?_update {id id' : String} (hne : id' ≠ id) (x : Ranked) (job : Job) :
    (s.update id x job).job? id' = s.job? id' := by
  rw [job?, update, Keyed.get?_put, if_neg hne.symm, job?]

section
variable (healthy : s.poisoned = false)
include healthy

theorem reported_complete (now : Millis) (id : String) (result : Option Payload) :
    (AnyStore.volatile s).Reported id (complete now id result s).1
      (.volatile (complete now id result s).2) := by
  cases hx : s.jobs.get? id with
  | none =>
    rw [complete_of_none healthy hx]
    exact .unknown (by rw [AnyStore.job?, job?, hx]; rfl)
  | some x =>
    have hj : (AnyStore.volatile s).job? id = some x.job := by rw [AnyStore.job?, job?, hx]; rfl
    by_cases hb : x.job.status = .processing
    · rw [complete_of_busy healthy hx hb]
      exact .taken hj hb (fun id' hne => job?_update hne x _) ⟨rfl, rfl⟩
    · rw [complete_of_idle healthy hx hb]
      exact .idle hj hb _

theorem reported_fail (retry : RetryPolicy) (now : Millis) (id message : String) :
    (AnyStore.volatile s).Reported id (fail retry now id message s).1
      (.volatile (fail retry now id message s).2) := by
  cases hx : s.jobs.get? id with
  | none =>
    rw [fail_of_none healthy hx]
    exact .unknown (by rw [AnyStore.job?, job?, hx]; rfl)
  | some x =>
    have hj : (AnyStore.volatile s).job? id = some x.job := by rw [AnyStore.job?, job?, hx]; rfl
    by_cases hb : x.job.status = .processing
    · rw [fail_of_busy healthy hx hb]
      exact .taken hj hb (fun id' hne => job?_update hne x _) ⟨rfl, rfl⟩
    · rw [fail_of_idle healthy hx hb]
      exact .idle hj hb _

end

end Volatile

/-! ## A file -/

/-- In either kind of database the other rows stay as they are. -/
theorem AnyStore.job?_setJobs {c : Connection} {rows : List Ranked} {identity : Nat}
    (jobs : c.database.jobs = some (.current rows identity)) {id id' : String} {p : Job → Bool}
    (hid : ∀ j, p j = true → j.id = id) {set : Job → Job} (hset : ∀ j, (set j).id = j.id)
    (hne : id' ≠ id) :
    (sqlite { c with database := c.database.setJobs (Rows.update p set rows) identity }).job? id' =
      (sqlite c).job? id' := by
  simp only [job?, jobs]
  exact Rows.byId?_update hid hset hne rows

namespace Sqlite

section
variable {c : Connection} {rows : List Ranked} {identity : Nat} (table : Table c rows identity)
  (isOpen : c.isOpen = true)
include table isOpen

theorem reported_complete (now : Millis) (id : String) (result : Option Payload) :
    (AnyStore.sqlite c).Reported id (complete now id result c).1
      (.sqlite (complete now id result c).2) := by
  have hc := table.ready isOpen
  have hjob : (AnyStore.sqlite c).job? id = Rows.byId? id rows :=
    congrFun (AnyStore.job?_sqlite table) id
  have hidle : (∀ j, Rows.byId? id rows = some j → j.status ≠ .processing) →
      complete now id result c = (.error (refusal .complete id c), c) := by
    intro idle
    have hno := Rows.count_isBusy table.valid idle
    unfold isBusy at hno
    simp only [complete, change_updateJobs hc, hno, Rows.update_eq_self hno, hc.setJobs_self]
  cases hj : Rows.byId? id rows with
  | none =>
    rw [hidle (by simp [hj]), refusal, fetchExisting_ready hc, hj]
    exact .unknown (hjob.trans hj)
  | some j =>
    by_cases hb : j.status = .processing
    · obtain ⟨n, hn⟩ := Rows.exists_count_eq_succ hj (Rows.isBusy_of_byId? hj hb)
      unfold isBusy at hn
      simp only [complete, change_updateJobs hc, hn]
      exact .taken (hjob.trans hj) hb (fun id' hne => AnyStore.job?_setJobs table.jobs
        (fun _ => id_of_isBusy) (fun _ => rfl) hne) rfl
    · rw [hidle fun j' hj' => Option.some.inj (hj.symm.trans hj') ▸ hb, refusal,
        fetchExisting_ready hc, hj]
      exact .idle (hjob.trans hj) hb _

theorem reported_fail (retry : RetryPolicy) (now : Millis) (id message : String) :
    (AnyStore.sqlite c).Reported id (fail retry now id message c).1
      (.sqlite (fail retry now id message c).2) := by
  have hc := table.ready isOpen
  have hjob : (AnyStore.sqlite c).job? id = Rows.byId? id rows :=
    congrFun (AnyStore.job?_sqlite table) id
  cases hj : Rows.byId? id rows with
  | none =>
    simp only [fail, planFailure, fetchExisting_ready hc, hj, Except.bind]
    exact .unknown (hjob.trans hj)
  | some j =>
    by_cases hb : j.status = .processing
    · -- between the look and the change nothing has come
      obtain ⟨n, hn⟩ := Rows.exists_count_eq_succ hj
        (p := fun k => k.id == id && k.status == .processing && k.attempts == j.attempts)
        (by simp [Rows.id_of_byId? hj, hb])
      have hid : ∀ k : Job, (k.id == id && k.status == .processing && k.attempts == j.attempts) =
          true → k.id = id := by
        intro k hk
        simp only [Bool.and_eq_true, beq_iff_eq] at hk
        exact hk.1.1
      simp only [fail, planFailure, fetchExisting_ready hc, hj, Except.bind, hb, if_true,
        PlannedFailure.carryOut, change_updateJobs hc, hn]
      exact .taken (hjob.trans hj) hb (fun id' hne => AnyStore.job?_setJobs table.jobs hid
        (fun k => by unfold PlannedFailure.apply; split <;> rfl) hne) rfl
    · simp only [fail, planFailure, fetchExisting_ready hc, hj, Except.bind, hb, if_false]
      exact .idle (hjob.trans hj) hb _

end

end Sqlite

/-! ## A server -/

namespace Postgres

section
variable {c : Connection} {rows : List Ranked} {identity : Nat} (table : Table c rows identity)
  (isOpen : c.isOpen = true)
include table isOpen

theorem reported_complete (now : Millis) {id : String} (plain : Plain [id])
    (result : Option Payload) :
    (AnyStore.postgres c).Reported id (complete now id result c).1
      (.postgres (complete now id result c).2) := by
  have hc := table.ready isOpen
  have hjob : (AnyStore.postgres c).job? id = Rows.byId? id rows :=
    congrFun (AnyStore.job?_postgres table) id
  have hidle : (∀ j, Rows.byId? id rows = some j → j.status ≠ .processing) →
      complete now id result c = ((fetchExisting id c).bind fun job =>
        .error (.error (.invalidState (.notProcessing .complete id job.status))), c) := by
    intro idle
    have hno := Rows.count_isBusy table.valid idle
    unfold isBusy at hno
    simp only [complete, perform_updateJobs hc plain, hno, Rows.update_eq_self hno, hc.setJobs_self]
  cases hj : Rows.byId? id rows with
  | none =>
    rw [hidle (by simp [hj]), fetchExisting_ready hc plain, hj]
    exact .unknown (hjob.trans hj)
  | some j =>
    by_cases hb : j.status = .processing
    · obtain ⟨n, hn⟩ := Rows.exists_count_eq_succ hj (Rows.isBusy_of_byId? hj hb)
      unfold isBusy at hn
      simp only [complete, perform_updateJobs hc plain, hn]
      exact .taken (hjob.trans hj) hb (fun id' hne => AnyStore.job?_setJobs table.jobs
        (fun _ => id_of_isBusy) (fun _ => rfl) hne) rfl
    · rw [hidle fun j' hj' => Option.some.inj (hj.symm.trans hj') ▸ hb,
        fetchExisting_ready hc plain, hj]
      exact .idle (hjob.trans hj) hb _

theorem reported_fail (retry : RetryPolicy) (now : Millis) {id message : String}
    (plain : Plain [id, message]) :
    (AnyStore.postgres c).Reported id (fail retry now id message c).1
      (.postgres (fail retry now id message c).2) := by
  have hc := table.ready isOpen
  have hjob : (AnyStore.postgres c).job? id = Rows.byId? id rows :=
    congrFun (AnyStore.job?_postgres table) id
  have hread := fetchExisting_ready hc (plain.of_mem (by simp) : Plain [id])
  cases hj : Rows.byId? id rows with
  | none =>
    simp only [fail, transaction, hread, hj]
    exact .unknown (hjob.trans hj)
  | some j =>
    by_cases hb : j.status = .processing
    · have plain' : Plain [message, id] := plain.of_mem (by simp)
      simp only [fail, transaction, hread, hj, hb, ne_eq, not_true, if_false,
        perform_updateJobs hc plain', Except.map]
      exact .taken (hjob.trans hj) hb (fun id' hne => AnyStore.job?_setJobs table.jobs
        (fun _ => beq_iff_eq.1) (fun k => by unfold afterFailure; split <;> rfl) hne) rfl
    · simp only [fail, transaction, hread, hj, hb, ne_eq, not_false_eq_true, if_true]
      exact .idle (hjob.trans hj) hb _

end

end Postgres

/-! ## Stores of any kind -/

namespace AnyStore

section
variable {α : Type} {s s' : AnyStore} {id : String} {a : Except Failure α}

theorem Reported.notFound_iff (h : s.Reported id a s') :
    (∃ what, a = .error (.error (.notFound what))) ↔ s.job? id = none := by
  cases h with
  | unknown unknown => exact iff_of_true ⟨_, rfl⟩ unknown
  | idle found => exact iff_of_false (by rintro ⟨_, ⟨⟩⟩) (by rw [found]; nofun)
  | taken found => exact iff_of_false (by rintro ⟨_, ⟨⟩⟩) (by rw [found]; nofun)

theorem Reported.invalidState_iff (h : s.Reported id a s') :
    (∃ why, a = .error (.error (.invalidState why))) ↔
      ∃ j, s.job? id = some j ∧ j.status ≠ .processing := by
  cases h with
  | unknown unknown => exact iff_of_false (by rintro ⟨_, ⟨⟩⟩) (by simp [unknown])
  | @idle j found idle why => exact iff_of_true ⟨why, rfl⟩ ⟨j, found, idle⟩
  | taken found busy => exact iff_of_false (by rintro ⟨_, ⟨⟩⟩) (by simp [found, busy])

theorem Reported.ok_iff (h : s.Reported id a s') :
    (∃ v, a = .ok v) ↔ ∃ j, s.job? id = some j ∧ j.status = .processing := by
  cases h with
  | unknown unknown => exact iff_of_false (by rintro ⟨_, ⟨⟩⟩) (by simp [unknown])
  | idle found idle => exact iff_of_false (by rintro ⟨_, ⟨⟩⟩) (by simp [found, idle])
  | @taken j v _ found busy => exact iff_of_true ⟨v, rfl⟩ ⟨j, found, busy⟩

theorem Reported.unchanged (h : s.Reported id a s') {f : Failure} (ha : a = .error f) : s' = s := by
  cases h with
  | unknown | idle => rfl
  | taken => cases ha

theorem Reported.spares (h : s.Reported id a s') {v : α} (ha : a = .ok v) :
    (∀ id', id' ≠ id → s'.job? id' = s.job? id') ∧ s.SameTenants s' := by
  cases h with
  | unknown | idle => cases ha
  | taken _ _ others tenants => exact ⟨others, tenants⟩

end

section
variable {rules : Rules} {s : AnyStore} {r : Request} {id : String}

/-- A store that answers requests decides on a report by the status of its job. -/
theorem Orderly.reported (h : s.Orderly) (serves : s.Serves r.texts) (report : r.reports? = some id)
    (rules : Rules) (now : Millis) :
    s.Reported id (AnyStore.ask rules now r s).1 (AnyStore.ask rules now r s).2 := by
  cases r with
  | complete id' result =>
    cases report
    cases h with
    | volatile => exact Volatile.reported_complete serves now id result
    | sqlite table => exact Sqlite.reported_complete table serves now id result
    | postgres table => exact Postgres.reported_complete table serves.1 now serves.2 result
  | fail id' message =>
    cases report
    cases h with
    | volatile => exact Volatile.reported_fail serves rules.retry now id message
    | sqlite table => exact Sqlite.reported_fail table serves rules.retry now id message
    | postgres table => exact Postgres.reported_fail table serves.1 rules.retry now serves.2
  | _ => cases report

/-- A store that does not answer requests is not changed by a report. -/
theorem Orderly.unserved (h : s.Orderly) (unserved : ¬s.Serves r.texts)
    (report : r.reports? = some id) (rules : Rules) (now : Millis) :
    (AnyStore.ask rules now r s).2 = s := by
  have hjobs : r.isAboutJobs = true := by
    cases r with
    | complete | fail => rfl
    | _ => cases report
  cases h with
  | @volatile s =>
    have poisoned : s.poisoned = true := by simpa [Serves] using unserved
    exact congrArg AnyStore.volatile (Volatile.ask_of_poisoned poisoned rules now r)
  | @sqlite c =>
    have closed : c.isOpen = false := by simpa [Serves] using unserved
    exact congrArg AnyStore.sqlite (congrArg Prod.snd (Sqlite.ask_closed closed rules now hjobs))
  | @postgres c rows identity table =>
    have same : (Postgres.ask rules now r c).2 = c := by
      cases ho : c.isOpen with
      | false => rw [Postgres.ask_closed ho rules now hjobs]
      | true =>
        have plain : ¬Postgres.Plain r.texts := fun plain => unserved ⟨ho, plain⟩
        obtain ⟨f, hf, -⟩ := Postgres.answered_of_not_plain (table.ready ho) rules now hjobs plain
        rw [hf]
    exact congrArg AnyStore.postgres same

theorem sameTenants_refl (s : AnyStore) : s.SameTenants s := by
  cases s with
  | volatile => exact ⟨rfl, rfl⟩
  | sqlite => exact rfl
  | postgres => exact rfl

/-- **The status of its job decides on a report.**  Take a store of any kind that any requests led
    to.  As long as it answers requests with such texts, a report comes back with the error that
    there is no job just when there is none, with the error that the job is in another state just
    when it is not being processed, and is taken otherwise.  Whatever error a report comes back
    with, also one of the storage, the store is as it was before, in every row; and when a report is
    taken, all other jobs, and all windows and limits, are as they were. -/
theorem status_decides_on_reports (reached : s.Reached rules) (now : Millis)
    (report : r.reports? = some id) :
    (s.Serves r.texts →
      ((∃ what, (ask rules now r s).1 = .error (.error (.notFound what))) ↔ s.job? id = none) ∧
      ((∃ why, (ask rules now r s).1 = .error (.error (.invalidState why))) ↔
        ∃ j, s.job? id = some j ∧ j.status ≠ .processing) ∧
      ((∃ v, (ask rules now r s).1 = .ok v) ↔
        ∃ j, s.job? id = some j ∧ j.status = .processing)) ∧
    (∀ f, (ask rules now r s).1 = .error f → (ask rules now r s).2 = s) ∧
    ∀ v, (ask rules now r s).1 = .ok v →
      (∀ id', id' ≠ id → (ask rules now r s).2.job? id' = s.job? id') ∧
        s.SameTenants (ask rules now r s).2 := by
  have h := reached.orderly
  by_cases serves : s.Serves r.texts
  · have reported := h.reported serves report rules now
    exact ⟨fun _ => ⟨reported.notFound_iff, reported.invalidState_iff, reported.ok_iff⟩,
      fun f hf => reported.unchanged hf, fun v hv => reported.spares hv⟩
  · have same := h.unserved serves report rules now
    refine ⟨fun hs => absurd hs serves, fun _ _ => same, fun _ _ => ?_⟩
    rw [same]
    exact ⟨fun _ _ => rfl, sameTenants_refl s⟩

/-- A server without jobs, after some calls. -/
def serverAfter (calls : List Volatile.Call) : AnyStore :=
  (store .default).after calls (.postgres (freshConnection .postgres))

theorem reached_serverAfter (calls : List Volatile.Call) :
    (serverAfter calls).Reached .default :=
  (Reached.new (.postgres ⟨rfl, rfl, rfl⟩)).after calls

theorem serves_serverAfter {calls : List Volatile.Call}
    (isOpen : ∃ c, serverAfter calls = .postgres c ∧ c.isOpen = true) {texts : List String}
    (plain : Postgres.Plain texts) : (serverAfter calls).Serves texts := by
  obtain ⟨c, hc, ho⟩ := isOpen
  rw [hc]
  exact ⟨ho, plain⟩

/-- A job is completed. -/
def oneDone : List Volatile.Call :=
  [⟨0, .enqueue "a" ⟨"q", "t", "o", .empty, {}⟩⟩, ⟨1, .dequeue "w" .any⟩, ⟨2, .complete "a" none⟩]

/-- A failure that comes too late is refused on a server, in whose transaction nothing happened; one
    of an unknown job is another error. -/
theorem status_decides_on_reports_too_late :
    (∃ why, (ask .default 3 (.fail "a" "late") (serverAfter oneDone)).1 =
      .error (.error (.invalidState why))) ∧
    (ask .default 3 (.fail "a" "late") (serverAfter oneDone)).2 = serverAfter oneDone ∧
    ∃ what, (ask .default 3 (.fail "b" "late") (serverAfter oneDone)).1 =
      .error (.error (.notFound what)) := by
  have reached := reached_serverAfter oneDone
  have isOpen : ∃ c, serverAfter oneDone = .postgres c ∧ c.isOpen = true :=
    ⟨_, rfl, by decide +kernel⟩
  have hdone : ((serverAfter oneDone).job? "a").map (·.status) = some .completed := by
    decide +kernel
  obtain ⟨j, hj, hstatus⟩ := Option.map_eq_some_iff.1 hdone
  obtain ⟨late, unchanged, -⟩ := status_decides_on_reports (r := .fail "a" "late") reached 3 rfl
  obtain ⟨-, hidle, -⟩ := late (serves_serverAfter isOpen (by simp [Postgres.Plain, Request.texts]))
  obtain ⟨why, hwhy⟩ := hidle.2 ⟨j, hj, by rw [hstatus]; decide⟩
  obtain ⟨unknown, -⟩ := status_decides_on_reports (r := .fail "b" "late") reached 3 rfl
  obtain ⟨hunknown, -⟩ := unknown (serves_serverAfter isOpen
    (by simp [Postgres.Plain, Request.texts]))
  exact ⟨⟨why, hwhy⟩, unchanged _ hwhy, hunknown.2 (by decide +kernel)⟩

/-- Once a request has broken off while it held the volatile store, reports are refused as if the
    store had broken down. -/
theorem poisoned_store_refuses_reports :
    Reached .default (.volatile (Volatile.replay .default Volatile.tooOldCounter).2) ∧
    (AnyStore.volatile (Volatile.replay .default Volatile.tooOldCounter).2).job? "b" = none ∧
    (ask .default Int64.maxValue (.complete "b" none)
      (.volatile (Volatile.replay .default Volatile.tooOldCounter).2)).1 =
        .error (.error (.internal .poisoned)) :=
  ⟨.of_trace (Volatile.Trace.replay .default Volatile.tooOldCounter), by decide, by decide⟩

end

end AnyStore

end JobQueue
