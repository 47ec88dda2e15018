/-
  What changes the scheme of a database.

  A request changes rows in one table that is there, if any
  (`Database.Rewritten`): it makes no table and no index, and it notes no
  version.  This holds whatever the state of the connection and of the scheme,
  and also of the second half of a report on a failed attempt.

  The scripts lead from an empty database to one with all tables.  Between them
  lie the databases that are `Regular`: each is just behind some of the scripts,
  and the next one succeeds (`Regular.next`).
-/
import JobQueue.Proofs.Number.Literal
import JobQueue.Store.Any
import JobQueue.Store.Migration

namespace JobQueue

/-- The rows of at most one table, which was there before, were changed. -/
inductive Database.Rewritten (d : Database) : Database → Prop where
  | kept : Rewritten d d
  | jobs {rows : List Ranked} {identity : Nat} (had : d.jobs = some (.current rows identity))
      (rows' : List Ranked) (identity' : Nat) : Rewritten d (d.setJobs rows' identity')
  | tenants {rows : Keyed Tenant TenantRow} (had : d.tenants = some rows)
      (rows' : Keyed Tenant TenantRow) : Rewritten d (d.setTenants rows')

namespace Database

variable {d : Database} {e : Engine}

theorem jobs_of_jobRows {rows : List Ranked} {identity : Nat}
    (h : d.jobRows e = .ok (rows, identity)) : d.jobs = some (.current rows identity) := by
  unfold jobRows at h
  split at h
  · cases h
  · cases h
  · next hjobs =>
    cases h
    exact hjobs

theorem tenants_of_tenantRows {rows : Keyed Tenant TenantRow} (h : d.tenantRows e = .ok rows) :
    d.tenants = some rows := by
  unfold tenantRows at h
  split at h
  · cases h
  · next htenants =>
    cases h
    exact htenants

end Database

/-- A statement that changes nothing but rows. -/
def Rewrites {α : Type} (statement : Database → Except EngineFault (α × Database)) : Prop :=
  ∀ d a d', statement d = .ok (a, d') → d.Rewritten d'

/-! ## Database files -/

namespace Sqlite

section
variable {α : Type} {statement : Database → Except EngineFault (α × Database)}

theorem rewritten_perform (h : Rewrites statement) (c : Connection) :
    c.database.Rewritten (perform statement c).2.database := by
  unfold perform
  split
  · exact .kept
  · split
    · exact .kept
    · next hs => exact h _ _ _ hs

theorem rewritten_change (h : Rewrites statement) (c : Connection) :
    c.database.Rewritten (change statement c).2.database := by
  refine rewritten_perform (fun d a d' hs => ?_) c
  obtain ⟨r, hr, hs⟩ := bind_eq_ok_iff.mp hs
  split at hs
  · cases hs
  · cases hs
    exact h d a d' hr

theorem rewrites_look (read : List Ranked → α) : Rewrites (look read) := by
  intro d a d' h
  obtain ⟨⟨rows, identity⟩, -, heq⟩ := map_eq_ok_iff.mp h
  cases heq
  exact .kept

theorem rewrites_setJobs (read : List Ranked → α) (write : List Ranked → List Ranked) :
    Rewrites fun d => (d.jobRows .sqlite).map fun (rows, identity) =>
      (read rows, d.setJobs (write rows) identity) := by
  intro d a d' h
  obtain ⟨⟨rows, identity⟩, hr, heq⟩ := map_eq_ok_iff.mp h
  cases heq
  exact .jobs (Database.jobs_of_jobRows hr) _ _

end

theorem rewrites_updateJobs (having : Job → Bool) (set : Job → Job) :
    Rewrites (updateJobs having set) :=
  rewrites_setJobs _ _

theorem rewrites_deleteJobs (having : Job → Bool) : Rewrites (deleteJobs having) :=
  rewrites_setJobs _ _

theorem rewrites_upsertTenant (t : Tenant) (new : TenantRow) (set : TenantRow → TenantRow) :
    Rewrites (upsertTenant t new set) := by
  intro d a d' h
  obtain ⟨rows, hr, heq⟩ := map_eq_ok_iff.mp h
  cases heq
  exact .tenants (Database.tenants_of_tenantRows hr) _

theorem rewritten_enqueue (now : Millis) (id : String) (sub : Submission) (c : Connection) :
    c.database.Rewritten (enqueue now id sub c).2.database := by
  refine rewritten_change (fun d a d' h => ?_) c
  obtain ⟨⟨rows, identity⟩, hr, h⟩ := bind_eq_ok_iff.mp h
  dsimp only at h
  split at h
  · cases h
  · cases h
    exact .jobs (Database.jobs_of_jobRows hr) _ _

theorem rewritten_dequeue (now : Millis) (worker : String) (queues : QueueSet) (c : Connection) :
    c.database.Rewritten (dequeue now worker queues c).2.database := by
  refine rewritten_change (fun d a d' h => ?_) c
  obtain ⟨⟨rows, identity⟩, hr, h⟩ := bind_eq_ok_iff.mp h
  dsimp only at h
  split at h
  · cases h
    exact .kept
  · obtain ⟨job, -, heq⟩ := map_eq_ok_iff.mp h
    cases heq
    exact .jobs (Database.jobs_of_jobRows hr) _ _

theorem rewritten_complete (now : Millis) (id : String) (result : Option Payload) (c : Connection) :
    c.database.Rewritten (complete now id result c).2.database := by
  have h := rewritten_change (rewrites_updateJobs (fun j => j.id == id && j.status == .processing)
    fun j => { j with status := .completed, completedAt := some now, result := result }) c
  unfold complete
  dsimp only
  split <;> next heq => rwa [heq] at h

theorem PlannedFailure.rewritten_carryOut (p : PlannedFailure) (c : Connection) :
    c.database.Rewritten (p.carryOut c).2.database := by
  have h := rewritten_change (rewrites_updateJobs
    (fun j => j.id == p.id && j.status == .processing && j.attempts == p.attempts) p.apply) c
  unfold carryOut
  dsimp only
  split <;> next heq => rwa [heq] at h

theorem rewritten_fail (retry : RetryPolicy) (now : Millis) (id message : String) (c : Connection) :
    c.database.Rewritten (fail retry now id message c).2.database := by
  unfold fail
  split
  · exact .kept
  · exact PlannedFailure.rewritten_carryOut _ c

theorem rewritten_stats (now : Millis) (queue : String) (c : Connection) :
    c.database.Rewritten (stats now queue c).2.database := by
  unfold stats
  split
  · exact .kept
  · exact rewritten_perform (rewrites_look _) c

theorem rewritten_canProcess (common : RateLimit) (now : Millis) (t : Tenant) (c : Connection) :
    c.database.Rewritten (canProcess common now t c).2.database := by
  refine rewritten_perform (fun d a d' h => ?_) c
  obtain ⟨⟨rows, identity⟩, -, h⟩ := bind_eq_ok_iff.mp h
  obtain ⟨tenants, -, heq⟩ := map_eq_ok_iff.mp h
  cases heq
  exact .kept

/-- **A request changes nothing but rows.** -/
theorem rewritten_ask (rules : Rules) (now : Millis) (r : Request) (c : Connection) :
    c.database.Rewritten (ask rules now r c).2.database := by
  cases r with
  | enqueue id sub => exact rewritten_enqueue now id sub c
  | dequeue worker queues => exact rewritten_dequeue now worker queues c
  | complete id result => exact rewritten_complete now id result c
  | fail id message => exact rewritten_fail rules.retry now id message c
  | delete id => exact rewritten_change (rewrites_deleteJobs _) c
  | get id => exact .kept
  | list filter => exact rewritten_perform (rewrites_look _) c
  | stats queue => exact rewritten_stats now queue c
  | canProcess t => exact rewritten_canProcess rules.limit now t c
  | record t => exact rewritten_change (rewrites_upsertTenant _ _ _) c
  | setLimit t limit => exact rewritten_change (rewrites_upsertTenant _ _ _) c
  | requeueStale before => exact rewritten_change (rewrites_updateJobs _ _) c
  | purge before => exact rewritten_change (rewrites_deleteJobs _) c
  | close => exact .kept

end Sqlite

/-! ## Database servers -/

namespace Postgres

section
variable {α : Type} {texts : List String} {d : Database}

theorem rewritten_perform {statement : Database → Except EngineFault α × Database}
    (h : ∀ d : Database, d.Rewritten (statement d).2) (c : Connection) :
    c.database.Rewritten (perform statement c).2.database := by
  have hs := h c.database
  unfold perform
  split
  · exact .kept
  · split <;> next heq => rwa [heq] at hs

theorem rewritten_clean {statement : Database → Except EngineFault (α × Database)}
    (h : Rewrites statement) (c : Connection) :
    c.database.Rewritten (perform (clean statement) c).2.database := by
  refine rewritten_perform (fun d => ?_) c
  unfold clean
  split
  · exact .kept
  · next hs => exact h _ _ _ hs

theorem jobs_of_jobRows {rows : List Ranked} {identity : Nat}
    (h : jobRows texts d = .ok (rows, identity)) : d.jobs = some (.current rows identity) := by
  obtain ⟨r, hr, h⟩ := bind_eq_ok_iff.mp h
  obtain ⟨-, -, rfl⟩ := map_eq_ok_iff.mp h
  exact Database.jobs_of_jobRows hr

theorem tenants_of_tenantRows {rows : Keyed Tenant TenantRow} (h : tenantRows texts d = .ok rows) :
    d.tenants = some rows := by
  obtain ⟨r, hr, h⟩ := bind_eq_ok_iff.mp h
  obtain ⟨-, -, rfl⟩ := map_eq_ok_iff.mp h
  exact Database.tenants_of_tenantRows hr

theorem rewrites_look (texts : List String) (read : List Ranked → Except EngineFault α) :
    Rewrites (look texts read) := by
  intro d a d' h
  obtain ⟨⟨rows, identity⟩, -, h⟩ := bind_eq_ok_iff.mp h
  obtain ⟨a, -, heq⟩ := map_eq_ok_iff.mp h
  cases heq
  exact .kept

theorem rewrites_setJobs (texts : List String) (read : List Ranked → α)
    (write : List Ranked → List Ranked) :
    Rewrites fun d => (jobRows texts d).map fun (rows, identity) =>
      (read rows, d.setJobs (write rows) identity) := by
  intro d a d' h
  obtain ⟨⟨rows, identity⟩, hr, heq⟩ := map_eq_ok_iff.mp h
  cases heq
  exact .jobs (jobs_of_jobRows hr) _ _

end

theorem rewrites_updateJobs (texts : List String) (having : Job → Bool) (set : Job → Job) :
    Rewrites (updateJobs texts having set) :=
  rewrites_setJobs texts _ _

theorem rewrites_deleteJobs (texts : List String) (having : Job → Bool) :
    Rewrites (deleteJobs texts having) :=
  rewrites_setJobs texts _ _

theorem rewrites_upsertTenant (t : Tenant) (new : TenantRow)
    (set : TenantRow → Except EngineFault TenantRow) : Rewrites (upsertTenant t new set) := by
  intro d a d' h
  obtain ⟨rows, hr, h⟩ := bind_eq_ok_iff.mp h
  obtain ⟨row, -, heq⟩ := map_eq_ok_iff.mp h
  cases heq
  exact .tenants (tenants_of_tenantRows hr) _

/-- A refused insertion changes the identity. -/
theorem rewritten_enqueue (now : Millis) (id : String) (sub : Submission) (c : Connection) :
    c.database.Rewritten (enqueue now id sub c).2.database := by
  refine rewritten_perform (fun d => ?_) c
  unfold insertJob
  split
  · exact .kept
  · next hr => split <;> exact .jobs (jobs_of_jobRows hr) _ _

theorem rewritten_dequeue (now : Millis) (worker : String) (queues : QueueSet) (c : Connection) :
    c.database.Rewritten (dequeue now worker queues c).2.database := by
  refine rewritten_clean (fun d a d' h => ?_) c
  obtain ⟨⟨rows, identity⟩, hr, h⟩ := bind_eq_ok_iff.mp h
  dsimp only at h
  split at h
  · cases h
    exact .kept
  · obtain ⟨job, -, heq⟩ := map_eq_ok_iff.mp h
    cases heq
    exact .jobs (jobs_of_jobRows hr) _ _

theorem rewritten_complete (now : Millis) (id : String) (result : Option Payload) (c : Connection) :
    c.database.Rewritten (complete now id result c).2.database := by
  have h := rewritten_clean (rewrites_updateJobs [id] (fun j => j.id == id && j.status == .processing)
    fun j => { j with status := .completed, completedAt := some now, result := result }) c
  unfold complete
  dsimp only
  split <;> next heq => rwa [heq] at h

theorem rewritten_transaction {α : Type} {body : Connection → Except Failure α × Connection}
    {c : Connection} (h : c.database.Rewritten (body c).2.database) :
    c.database.Rewritten (transaction body c).2.database := by
  unfold transaction
  split
  · exact .kept
  · next heq => rwa [heq] at h

theorem rewritten_fail (retry : RetryPolicy) (now : Millis) (id message : String) (c : Connection) :
    c.database.Rewritten (fail retry now id message c).2.database := by
  refine rewritten_transaction ?_
  split
  · exact .kept
  · split
    · exact .kept
    · exact rewritten_clean (rewrites_updateJobs _ _ _) c

theorem rewritten_stats (now : Millis) (queue : String) (c : Connection) :
    c.database.Rewritten (stats now queue c).2.database := by
  unfold stats
  split
  · exact .kept
  · exact rewritten_clean (rewrites_look _ _) c

theorem rewritten_canProcess (common : RateLimit) (now : Millis) (t : Tenant) (c : Connection) :
    c.database.Rewritten (canProcess common now t c).2.database := by
  refine rewritten_clean (fun d a d' h => ?_) c
  obtain ⟨⟨rows, identity⟩, -, h⟩ := bind_eq_ok_iff.mp h
  obtain ⟨tenants, -, heq⟩ := map_eq_ok_iff.mp h
  cases heq
  exact .kept

/-- **A request changes nothing but rows.** -/
theorem rewritten_ask (rules : Rules) (now : Millis) (r : Request) (c : Connection) :
    c.database.Rewritten (ask rules now r c).2.database := by
  cases r with
  | enqueue id sub => exact rewritten_enqueue now id sub c
  | dequeue worker queues => exact rewritten_dequeue now worker queues c
  | complete id result => exact rewritten_complete now id result c
  | fail id message => exact rewritten_fail rules.retry now id message c
  | delete id => exact rewritten_clean (rewrites_deleteJobs _ _) c
  | get id => exact .kept
  | list filter => exact rewritten_clean (rewrites_look _ _) c
  | stats queue => exact rewritten_stats now queue c
  | canProcess t => exact rewritten_canProcess rules.limit now t c
  | record t => exact rewritten_clean (rewrites_upsertTenant _ _ _) c
  | setLimit t limit => exact rewritten_clean (rewrites_upsertTenant _ _ _) c
  | requeueStale before => exact rewritten_clean (rewrites_updateJobs _ _ _) c
  | purge before => exact rewritten_clean (rewrites_deleteJobs _ _) c
  | close => exact .kept

end Postgres

/-! ## Databases between the scripts -/

namespace Database

/-- The migrations that a database does not note, in their order. -/
def pending (d : Database) : List Migration :=
  Migration.all.filter fun m => m.version ∉ d.versions.getD []

/-- The databases just behind some of the scripts. -/
inductive Regular : Database → Prop where
  | empty : Regular {}
  | jobs (rows : List Ranked) (identity : Nat) :
      Regular
        { versions := some [1], jobs := some (.current rows identity),
          indexes := ["idx_jobs_dequeue", "idx_jobs_org_queue_status", "idx_jobs_status_completed"] }
  | limits (rows : List Ranked) (identity : Nat) (tenants : Keyed Tenant TenantRow) :
      Regular
        { versions := some [1, 2], jobs := some (.current rows identity), tenants := some tenants,
          indexes := ["idx_jobs_dequeue", "idx_jobs_org_queue_status", "idx_jobs_status_completed"] }

/-- A table that was there is the same, and one that was not is still not there or `new`. -/
def Kept {α : Type} (new : α) (x y : Option α) : Prop := y = x ∨ x = none ∧ y = some new

theorem Kept.trans {α : Type} {new : α} {x y z : Option α} (h : Kept new x y) (h' : Kept new y z) :
    Kept new x z := by
  rcases h with rfl | ⟨rfl, rfl⟩
  · exact h'
  · rcases h' with rfl | ⟨hnone, -⟩
    · exact .inr ⟨rfl, rfl⟩
    · cases hnone

/-- Every table that was there has the rows that it had, and a new one has none. -/
structure Keeps (d d' : Database) : Prop where
  jobs : Kept (.current [] 1) d.jobs d'.jobs
  tenants : Kept [] d.tenants d'.tenants

variable {d d' d'' : Database} {m : Migration} {ms : List Migration}

theorem Keeps.refl (d : Database) : d.Keeps d := ⟨.inl rfl, .inl rfl⟩

theorem Keeps.trans (h : d.Keeps d') (h' : d'.Keeps d'') : d.Keeps d'' :=
  ⟨h.jobs.trans h'.jobs, h.tenants.trans h'.tenants⟩

/-- Behind every script but the last one the next one succeeds, and keeps all rows. -/
theorem Regular.next (h : d.Regular) (hd : d.pending = m :: ms) (e : Engine) :
    ∃ d', d.runScript e m.script = .ok d' ∧ d'.Regular ∧ d'.pending = ms ∧ d.Keeps d' := by
  cases h with
  | empty =>
    cases hd
    exact ⟨_, rfl, .jobs [] 1, rfl, .inr ⟨rfl, rfl⟩, .inl rfl⟩
  | jobs rows identity =>
    cases hd
    exact ⟨_, rfl, .limits rows identity [], rfl, .inl rfl, .inr ⟨rfl, rfl⟩⟩
  | limits => cases hd

/-- The highest version tells what is pending, also when there is none. -/
theorem Regular.filter_version (h : d.Regular) :
    Migration.all.filter (fun m => d.version < m.version) = d.pending := by
  cases h <;> rfl

theorem Regular.isBehind_iff (h : d.Regular) : d.isBehind = false ↔ d.pending = [] := by
  rw [isBehind, List.any_eq_false, ← h.filter_version, List.filter_eq_nil_iff]

theorem Regular.tables (h : d.Regular) :
    d.versions = none ∧ d.tableNames = [] ∨
      d.versions = some [1] ∧ d.tableNames = [jobsTable, versionsTable] ∨
      d.versions = some [1, 2] ∧ d.tableNames = [jobsTable, tenantsTable, versionsTable] := by
  cases h with
  | empty => exact .inl ⟨rfl, rfl⟩
  | jobs => exact .inr (.inl ⟨rfl, rfl⟩)
  | limits => exact .inr (.inr ⟨rfl, rfl⟩)

theorem Regular.pending_eq_nil_iff (h : d.Regular) : d.pending = [] ↔ d.versions = some [1, 2] := by
  cases h with
  | empty => exact ⟨nofun, nofun⟩
  | jobs => exact ⟨nofun, nofun⟩
  | limits => exact ⟨fun _ => rfl, fun _ => rfl⟩

/-- Changed rows make no difference to the scheme. -/
theorem Regular.rewritten (h : d.Regular) (hr : d.Rewritten d') : d'.Regular := by
  cases hr with
  | kept => exact h
  | jobs had rows' identity' =>
    cases h with
    | empty => cases had
    | jobs => exact .jobs rows' identity'
    | limits => exact .limits rows' identity' _
  | tenants had rows' =>
    cases h with
    | empty => cases had
    | jobs => cases had
    | limits => exact .limits _ _ rows'

theorem Rewritten.versions (h : d.Rewritten d') : d'.versions = d.versions := by
  cases h <;> rfl

theorem Rewritten.pending (h : d.Rewritten d') : d'.pending = d.pending := by
  rw [Database.pending, h.versions, Database.pending]

end Database

end JobQueue
