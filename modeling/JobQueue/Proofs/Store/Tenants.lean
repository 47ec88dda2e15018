/-
  The rows of the tenants, and the windows and limits that they hold.

  The volatile store keeps windows and limits apart; a database has one row for
  each tenant, which is inserted by the first job that is counted or by the
  first limit that is set.  A row for a limit alone has a window that opened at
  the epoch.  `Volatile.Metered` says that rows hold the windows and limits of a
  store; a count and a limit keep it so, and what a row says about one more job
  is what the store says, as long as a window that opened at the epoch is over
  (`Metered.admits`).  A server has no rows for tenants whose names it refuses,
  so this is said of the tenants that a database serves.

  Of the requests to a database only the counts and the settings of limits touch
  the rows of the tenants (`tenants_ask`), and they leave those of the jobs alone.
-/
import JobQueue.Proofs.Store.Epoch
import JobQueue.Proofs.Store.ServerRows

namespace JobQueue

/-! ## Windows -/

namespace Window

variable {w w' : Window} {now : Millis}

/-- The window of a row that counts no jobs. -/
def atEpoch : Window := ⟨0, 0⟩

theorem toInt_of_late (late : rateWindow < now) : rateWindow.toInt < now.toInt :=
  Int64.lt_iff_toInt_lt.1 late

theorem counted?_atEpoch (late : rateWindow < now) : atEpoch.counted? now = some 0 := by
  have hw := rateWindow_toInt
  have hn := toInt_of_late late
  have h0 : atEpoch.start.toInt = 0 := rfl
  rw [counted?_eq (by omega) (by omega)]
  exact congrArg some (ite_self _)

/-- The first job counted in a row opens a new window. -/
theorem record?_atEpoch (late : rateWindow < now) : atEpoch.record? now = some ⟨now, 1⟩ := by
  have hw := rateWindow_toInt
  have hn := toInt_of_late late
  have h0 : atEpoch.start.toInt = 0 := rfl
  rw [record?_eq (by omega) (by omega), if_pos (by omega)]

/-- A window that takes one more job has an age, and has ended or has room. -/
theorem record?_cases (h : w.record? now = some w') :
    ∃ age, sub? now w.start = some age ∧
      (rateWindow < age ∧ w' = ⟨now, 1⟩ ∨
        ¬ rateWindow < age ∧ ∃ n, succ? w.jobs = some n ∧ w' = ⟨w.start, n⟩) := by
  obtain ⟨stale, hs, h⟩ := Option.bind_eq_some_iff.1 h
  obtain ⟨age, hage, rfl⟩ := Option.map_eq_some_iff.1 hs
  refine ⟨age, hage, ?_⟩
  by_cases hover : rateWindow < age
  · rw [if_pos (decide_eq_true hover)] at h
    exact .inl ⟨hover, (Option.some.inj h).symm⟩
  · rw [if_neg (by simpa using hover)] at h
    obtain ⟨n, hn, rfl⟩ := Option.map_eq_some_iff.1 h
    exact .inr ⟨hover, n, hn, rfl⟩

end Window

/-- A file counts one more job as the volatile store does. -/
theorem Sqlite.countedIn_of_record? {w w' : Window} {now : Millis} (h : w.record? now = some w') :
    Sqlite.countedIn now w = w' := by
  obtain ⟨age, hage, h⟩ := Window.record?_cases h
  have ha : age.toInt = now.toInt - w.start.toInt := toInt_of_fit? hage
  unfold Sqlite.countedIn
  rcases h with ⟨hover, rfl⟩ | ⟨hover, n, hn, rfl⟩
  · rw [if_pos (ha ▸ Int64.lt_iff_toInt_lt.1 hover)]
  · rw [if_neg (ha ▸ fun hlt => hover (Int64.lt_iff_toInt_lt.2 hlt))]
    have hadd : addClamped w.jobs 1 = n := by
      rw [addClamped, show w.jobs.toInt + (1 : Int64).toInt = n.toInt from (toInt_of_fit? hn).symm,
        clamp_toInt]
    rw [hadd]

/-- A server counts one more job as the volatile store does. -/
theorem Postgres.countedIn_of_record? {w w' : Window} {now : Millis} (h : w.record? now = some w') :
    Postgres.countedIn now w = .ok w' := by
  obtain ⟨age, hage, h⟩ := Window.record?_cases h
  have hfit : fit? (now.toInt - w.start.toInt) = some age := hage
  unfold Postgres.countedIn
  rw [hfit]
  dsimp only
  rcases h with ⟨hover, rfl⟩ | ⟨hover, n, hn, rfl⟩
  · rw [if_pos hover]
  · have hsucc : fit? (w.jobs.toInt + 1) = some n := hn
    rw [if_neg hover, hsucc]

/-! ## Rows -/

namespace TenantRow

/-- The row holds a window and a limit, as far as there are any. -/
structure Holds (row : TenantRow) (w : Option Window) (l : Option RateLimit) : Prop where
  window : row.window = w.getD .atEpoch
  perHour : row.perHour = l.map (·.perHour)
  concurrent : row.concurrent = l.map (·.concurrent)

/-- The row of a tenant with another window. -/
def counting (w : Window) (row? : Option TenantRow) : TenantRow :=
  (row?.map fun row => { row with window := w }).getD ⟨w, none, none⟩

/-- The row of a tenant with limits of its own. -/
def limited (l : RateLimit) (row? : Option TenantRow) : TenantRow :=
  (row?.map (withLimit l)).getD (unused.withLimit l)

section
variable {row : TenantRow} {w : Option Window} {l : Option RateLimit} {now : Millis}

theorem Holds.limit (h : row.Holds w l) (common : RateLimit) : row.limit common = l.getD common := by
  rw [TenantRow.limit, h.perHour, h.concurrent]
  cases l <;> rfl

theorem Holds.record? (h : row.Holds w l) (late : rateWindow < now) :
    row.window.record? now = (w.getD (.openAt now)).record? now := by
  have hn := Window.toInt_of_late late
  have hw := rateWindow_toInt
  rw [h.window]
  cases w with
  | none => exact (Window.record?_atEpoch late).trans (Window.record?_openAt (by omega)).symm
  | some w => rfl

end

end TenantRow

namespace Volatile

/-- The rows hold the windows and the limits that the store has for the tenants that are served. -/
structure Metered (s : Volatile) (served : Tenant → Prop) (tenants : Keyed Tenant TenantRow) :
    Prop where
  held : ∀ t row, served t → tenants.get? t = some row →
    row.Holds (s.windows.get? t) (s.limits.get? t)
  absent : ∀ t, served t → tenants.get? t = none →
    s.windows.get? t = none ∧ s.limits.get? t = none

theorem metered_empty (served : Tenant → Prop) : Metered empty served [] where
  held t row _ h := by cases h
  absent t _ _ := ⟨rfl, rfl⟩

/-- The windows and the limits of all tenants but one are the same. -/
def SameBut (t : Tenant) (s s' : Volatile) : Prop :=
  ∀ t', t ≠ t' → s'.windows.get? t' = s.windows.get? t' ∧ s'.limits.get? t' = s.limits.get? t'

theorem sameBut_window (s : Volatile) (t : Tenant) (w : Window) :
    SameBut t s { s with windows := s.windows.put t w } :=
  fun t' he => ⟨by rw [Keyed.get?_put, if_neg he], rfl⟩

theorem sameBut_limit (s : Volatile) (t : Tenant) (l : RateLimit) :
    SameBut t s { s with limits := s.limits.put t l } :=
  fun t' he => ⟨rfl, by rw [Keyed.get?_put, if_neg he]⟩

section
variable {s s' : Volatile} {served : Tenant → Prop} {tenants : Keyed Tenant TenantRow} {t : Tenant}
  (h : s.Metered served tenants)
include h

/-- Jobs do not matter. -/
theorem Metered.of_eq (hw : s'.windows = s.windows) (hl : s'.limits = s.limits) :
    s'.Metered served tenants where
  held t row hs ht := by rw [hw, hl]; exact h.held t row hs ht
  absent t hs ht := by rw [hw, hl]; exact h.absent t hs ht

/-- Nor do tenants that are not served. -/
theorem Metered.of_unserved (unserved : ¬served t) (same : SameBut t s s') :
    s'.Metered served tenants := by
  have hne : ∀ {t'}, served t' → t ≠ t' := by
    rintro t' hs rfl
    exact unserved hs
  refine ⟨fun t' row hs ht' => ?_, fun t' hs ht' => ?_⟩
  · rw [(same t' (hne hs)).1, (same t' (hne hs)).2]
    exact h.held t' row hs ht'
  · rw [(same t' (hne hs)).1, (same t' (hne hs)).2]
    exact h.absent t' hs ht'

/-- The row of one tenant changes with its window and its limit. -/
theorem Metered.put {row : TenantRow} (hrow : row.Holds (s'.windows.get? t) (s'.limits.get? t))
    (same : SameBut t s s') : s'.Metered served (tenants.put t row) := by
  refine ⟨fun t' row' hs ht' => ?_, fun t' hs ht' => ?_⟩
  · rw [Keyed.get?_put] at ht'
    by_cases he : t = t'
    · subst he
      rw [if_pos rfl] at ht'
      exact Option.some.inj ht' ▸ hrow
    · rw [if_neg he] at ht'
      rw [(same t' he).1, (same t' he).2]
      exact h.held t' row' hs ht'
  · rw [Keyed.get?_put] at ht'
    by_cases he : t = t'
    · rw [if_pos he] at ht'
      cases ht'
    · rw [if_neg he] at ht'
      rw [(same t' he).1, (same t' he).2]
      exact h.absent t' hs ht'

variable (hs : served t)
include hs

theorem Metered.counting (w : Window) :
    Metered { s with windows := s.windows.put t w } served
      (tenants.put t (TenantRow.counting w (tenants.get? t))) := by
  have hget : Keyed.get? (s.windows.put t w) t = some w := by rw [Keyed.get?_put, if_pos rfl]
  refine h.put ?_ (sameBut_window s t w)
  rw [hget]
  cases ht : tenants.get? t with
  | none =>
    rw [(h.absent t hs ht).2]
    exact ⟨rfl, rfl, rfl⟩
  | some row => exact ⟨rfl, (h.held t row hs ht).perHour, (h.held t row hs ht).concurrent⟩

theorem Metered.limited (l : RateLimit) :
    Metered { s with limits := s.limits.put t l } served
      (tenants.put t (TenantRow.limited l (tenants.get? t))) := by
  have hget : Keyed.get? (s.limits.put t l) t = some l := by rw [Keyed.get?_put, if_pos rfl]
  refine h.put ?_ (sameBut_limit s t l)
  rw [hget]
  cases ht : tenants.get? t with
  | none =>
    rw [(h.absent t hs ht).1]
    exact ⟨rfl, rfl, rfl⟩
  | some row => exact ⟨(h.held t row hs ht).window, rfl, rfl⟩

theorem Metered.counted? {now : Millis} (late : rateWindow < now) {row : TenantRow}
    (ht : tenants.get? t = some row) : row.window.counted? now = s.counted? now t := by
  rw [(h.held t row hs ht).window, Volatile.counted?]
  cases s.windows.get? t with
  | none => exact Window.counted?_atEpoch late
  | some w => rfl

/-- A row, or its absence, says about one more job what the store says. -/
theorem Metered.admits {now : Millis} (late : rateWindow < now) (rules : Rules) {n : Int64}
    (hn : s.counted? now t = some n) (processing : Nat) :
    TenantRow.admits rules.limit now processing (tenants.get? t) =
      .ok ((s.limit rules t).admits n (clamp processing)) := by
  unfold TenantRow.admits Volatile.limit
  cases ht : tenants.get? t with
  | none =>
    rw [Volatile.counted?, (h.absent t hs ht).1] at hn
    rw [(h.absent t hs ht).2, ← Option.some.inj hn]
    rfl
  | some row => simp only [h.counted? hs late ht, hn, (h.held t row hs ht).limit]

/-- The window of a row that takes one more job is the one that the store opens or continues. -/
theorem Metered.record? {now : Millis} (late : rateWindow < now) {w : Window}
    (hw : ((s.windows.get? t).getD (.openAt now)).record? now = some w) :
    (tenants.get? t = none ∧ w = ⟨now, 1⟩) ∨
      ∃ row, tenants.get? t = some row ∧ row.window.record? now = some w := by
  cases ht : tenants.get? t with
  | none =>
    have hn := Window.toInt_of_late late
    have hr := rateWindow_toInt
    rw [(h.absent t hs ht).1, Option.getD_none, Window.record?_openAt (by omega)] at hw
    exact .inl ⟨rfl, (Option.some.inj hw).symm⟩
  | some row => exact .inr ⟨row, rfl, ((h.held t row hs ht).record? late).trans hw⟩

end

/-- The jobs of a tenant in processing are counted in the rows. -/
theorem Mirrored.processing {s : Volatile} {rows : List Ranked} (hm : s.Mirrored rows) (t : Tenant) :
    Rows.processing t rows = s.processing t := by
  rw [Rows.processing, hm.count, Volatile.processing]
  refine List.countP_congr fun x _ => ?_
  simp only [Bool.and_eq_true, beq_iff_eq]
  tauto

end Volatile

/-- The rows of a database hold the windows and the limits of the tenants that it serves. -/
def Database.Meters (d : Database) (served : Tenant → Prop) (s : Volatile) : Prop :=
  ∃ tenants, d.tenants = some tenants ∧ s.Metered served tenants

theorem Database.tenantRows_ok {d : Database} {e : Engine} {tenants : Keyed Tenant TenantRow}
    (ht : d.tenants = some tenants) : d.tenantRows e = .ok tenants := by
  rw [Database.tenantRows, ht]

theorem Database.Meters.of_eq {d d' : Database} {served : Tenant → Prop} {s s' : Volatile}
    (h : d.Meters served s) (hd : d'.tenants = d.tenants) (hw : s'.windows = s.windows)
    (hl : s'.limits = s.limits) : d'.Meters served s' := by
  obtain ⟨tenants, ht, hm⟩ := h
  exact ⟨tenants, hd.trans ht, hm.of_eq hw hl⟩

/-! ## Statements that leave the tenants alone -/

/-- The statement leaves the rows of the tenants alone. -/
def SparesTenants {α : Type} (statement : Database → Except EngineFault (α × Database)) : Prop :=
  ∀ d a d', statement d = .ok (a, d') → d'.tenants = d.tenants

section
variable {α β : Type} {statement : Database → Except EngineFault (α × Database)}

theorem sparesTenants_map (read : Database → Except EngineFault β) {f : Database → β → α × Database}
    (hf : ∀ d b, (f d b).2.tenants = d.tenants) : SparesTenants fun d => (read d).map (f d) := by
  intro d a d' hd
  cases hr : read d with
  | error e => simp [hr, Except.map] at hd
  | ok b =>
    simp only [hr, Except.map, Except.ok.injEq] at hd
    rw [← hf d b, hd]

theorem sparesTenants_bind (read : Database → Except EngineFault β)
    {f : Database → β → Except EngineFault (α × Database)} (hf : ∀ b, SparesTenants (f · b)) :
    SparesTenants fun d => (read d).bind (f d) := by
  intro d a d' hd
  cases hr : read d with
  | error e => simp [hr, Except.bind] at hd
  | ok b => exact hf b d a d' (by simpa only [hr, Except.bind] using hd)

theorem SparesTenants.perform_sqlite (h : SparesTenants statement) (c : Connection) :
    (Sqlite.perform statement c).2.database.tenants = c.database.tenants := by
  unfold Sqlite.perform
  split
  · rfl
  · split
    · rfl
    · exact h _ _ _ ‹_›

theorem SparesTenants.change (h : SparesTenants statement) (c : Connection) :
    (Sqlite.change statement c).2.database.tenants = c.database.tenants := by
  refine SparesTenants.perform_sqlite (fun d a d' hd => ?_) c
  cases hs : statement d with
  | error f => simp [hs, Except.bind] at hd
  | ok r =>
    simp only [hs, Except.bind] at hd
    split at hd
    · cases hd
    · exact h d a d' (hs.trans hd)

theorem SparesTenants.perform_postgres (h : SparesTenants statement) (c : Connection) :
    (Postgres.perform (Postgres.clean statement) c).2.database.tenants = c.database.tenants := by
  unfold Postgres.perform Postgres.clean
  split
  · rfl
  · cases hs : statement c.database with
    | error f => rfl
    | ok r => exact h _ r.1 r.2 hs

end

/-! ## Requests to a file -/

namespace Sqlite

theorem sparesTenants_claim (now : Millis) (worker : String) (queues : QueueSet) :
    SparesTenants fun d => (d.jobRows .sqlite).bind fun (rows, identity) =>
      match (Rows.inOrder (Rows.isDue now queues) rows).head? with
      | none => .ok (none, d)
      | some r => (claimed now worker r.job).map fun job =>
        let isNext (j : Job) : Bool := j.id == r.job.id && j.status == .pending
        (some job, d.setJobs (Rows.update isNext (fun _ => job) rows) identity) := by
  refine sparesTenants_bind _ fun (rows, identity) d a d' hd => ?_
  dsimp only at hd
  split at hd
  · obtain ⟨-, rfl⟩ := Prod.mk.inj (Except.ok.inj hd)
    rfl
  · cases hc : claimed now worker _ with
    | error f => rw [hc] at hd; cases hd
    | ok job =>
      rw [hc] at hd
      obtain ⟨-, rfl⟩ := Prod.mk.inj (Except.ok.inj hd)
      rfl

/-- Only two requests are about the rows of the tenants. -/
theorem tenants_ask (rules : Rules) (now : Millis) {r : Request} (hr : ∀ t, r ≠ .record t)
    (hl : ∀ t l, r ≠ .setLimit t l) (c : Connection) :
    (ask rules now r c).2.database.tenants = c.database.tenants := by
  have look {α : Type} (read : List Ranked → α) : SparesTenants (look read) :=
    sparesTenants_map _ fun _ _ => rfl
  have update (having : Job → Bool) (set : Job → Job) : SparesTenants (updateJobs having set) :=
    sparesTenants_map _ fun _ _ => rfl
  have delete (having : Job → Bool) : SparesTenants (deleteJobs having) :=
    sparesTenants_map _ fun _ _ => rfl
  cases r with
  | record t => exact absurd rfl (hr t)
  | setLimit t l => exact absurd rfl (hl t l)
  | enqueue id sub =>
    refine SparesTenants.change (sparesTenants_bind _ fun (rows, identity) d a d' hd => ?_) c
    dsimp only at hd
    split at hd
    · cases hd
    · obtain ⟨-, rfl⟩ := Prod.mk.inj (Except.ok.inj hd)
      rfl
  | dequeue worker queues => exact (sparesTenants_claim now worker queues).change c
  | complete id result =>
    have h := (update (fun j => j.id == id && j.status == .processing)
      (fun j => { j with status := .completed, completedAt := some now, result := result })).change c
    simp only [ask, complete]
    generalize change (updateJobs _ _) c = x at h ⊢
    obtain ⟨_ | _ | _, c'⟩ := x <;> exact h
  | fail id message =>
    simp only [ask, fail]
    split
    · rfl
    · rename_i p hp
      have h := (update (fun j => j.id == p.id && j.status == .processing && j.attempts == p.attempts)
        p.apply).change c
      simp only [PlannedFailure.carryOut]
      generalize change (updateJobs _ _) c = x at h ⊢
      obtain ⟨_ | _ | _, c'⟩ := x <;> exact h
  | delete id => exact (delete _).change c
  | get id => rfl
  | list filter => exact (look _).perform_sqlite c
  | stats queue =>
    simp only [ask, stats]
    split
    · rfl
    · exact (look _).perform_sqlite c
  | canProcess t =>
    exact (sparesTenants_bind _ fun _ => sparesTenants_map _ fun _ _ => rfl).perform_sqlite c
  | requeueStale before => exact (update _ _).change c
  | purge before => exact (delete _).change c
  | close => rfl

/-- The file holds the jobs, the windows and the limits of the store. -/
structure Copies (s : Volatile) (c : Connection) : Prop where
  jobs : Mirrors s c
  tenants : c.database.Meters (fun _ => True) s

section
variable {s : Volatile} {c : Connection} {rules : Rules} {now : Millis} (hc : Copies s c)
include hc

/-- A change of one tenant leaves the jobs alone. -/
theorem Copies.setTenant {s' : Volatile} {tenants : Keyed Tenant TenantRow}
    (hj : s'.jobs = s.jobs) (hm : s'.Metered (fun _ => True) tenants) :
    Copies s' { c with database := c.database.setTenants tenants } :=
  ⟨hc.jobs.of_jobs hj rfl, tenants, rfl, hm⟩

theorem Copies.record (late : rateWindow < now) {t : Tenant} {w : Window}
    (hw : ((s.windows.get? t).getD (.openAt now)).record? now = some w) :
    ∃ c', record now t c = (.ok (), c') ∧ Copies { s with windows := s.windows.put t w } c' := by
  obtain ⟨rows, identity, hready, -⟩ := hc.jobs
  obtain ⟨tenants, ht, hm⟩ := hc.tenants
  refine ⟨_, change_ok hready ?_, hc.setTenant rfl (hm.counting trivial w)⟩
  rw [upsertTenant, Database.tenantRows_ok ht, Except.map]
  rcases hm.record? trivial late hw with ⟨hrow, rfl⟩ | ⟨row, hrow, hnext⟩
  · rw [hrow]
    rfl
  · rw [hrow, Option.map_some, countedIn_of_record? hnext]
    rfl

theorem Copies.setLimit (t : Tenant) (l : RateLimit) :
    ∃ c', setLimit t l c = (.ok (), c') ∧ Copies { s with limits := s.limits.put t l } c' := by
  obtain ⟨rows, identity, hready, -⟩ := hc.jobs
  obtain ⟨tenants, ht, hm⟩ := hc.tenants
  refine ⟨_, change_ok hready ?_, hc.setTenant rfl (hm.limited trivial l)⟩
  rw [upsertTenant, Database.tenantRows_ok ht]
  rfl

theorem Copies.canProcess (late : rateWindow < now) (rules : Rules) {t : Tenant} {n : Int64}
    (hn : s.counted? now t = some n) :
    canProcess rules.limit now t c =
      (.ok ((s.limit rules t).admits n (clamp (s.processing t))), c) := by
  obtain ⟨rows, identity, hready, hmirrored⟩ := hc.jobs
  obtain ⟨tenants, ht, hm⟩ := hc.tenants
  rw [Sqlite.canProcess, perform_ok hready (a := (s.processing t, tenants.get? t)) (d := c.database)]
  · exact Prod.ext (hm.admits trivial late rules hn _) rfl
  · rw [hready.jobRows, ← hmirrored.processing t]
    simp only [Except.bind, Database.tenantRows_ok ht, Except.map]

end

end Sqlite

/-! ## Requests to a server -/

namespace Postgres

theorem sparesTenants_look {α : Type} (texts : List String)
    (read : List Ranked → Except EngineFault α) : SparesTenants (look texts read) :=
  sparesTenants_bind _ fun (rows, _) => sparesTenants_map (fun _ => read rows) fun _ _ => rfl

theorem sparesTenants_claim (now : Millis) (worker : String) (queues : QueueSet) :
    SparesTenants fun d => (jobRows (worker :: queues.names) d).bind fun (rows, identity) =>
      match (Rows.inOrder (Rows.isDue now queues) rows).head? with
      | none => .ok (none, d)
      | some r => (claimed now worker r.job).map fun job =>
        (some job, d.setJobs (Rows.update (·.id == r.job.id) (fun _ => job) rows) identity) := by
  refine sparesTenants_bind _ fun (rows, identity) d a d' hd => ?_
  dsimp only at hd
  split at hd
  · obtain ⟨-, rfl⟩ := Prod.mk.inj (Except.ok.inj hd)
    rfl
  · cases hc : claimed now worker _ with
    | error f => rw [hc] at hd; cases hd
    | ok job =>
      rw [hc] at hd
      obtain ⟨-, rfl⟩ := Prod.mk.inj (Except.ok.inj hd)
      rfl

/-- An insertion uses up an identity and leaves the tenants alone. -/
theorem tenants_insertJob (job : Job) (d : Database) : (insertJob job d).2.tenants = d.tenants := by
  unfold insertJob
  split
  · rfl
  · split
    · rfl
    · rfl

/-- Only two requests are about the rows of the tenants. -/
theorem tenants_ask (rules : Rules) (now : Millis) {r : Request} (hr : ∀ t, r ≠ .record t)
    (hl : ∀ t l, r ≠ .setLimit t l) (c : Connection) :
    (ask rules now r c).2.database.tenants = c.database.tenants := by
  have update (texts : List String) (having : Job → Bool) (set : Job → Job) :
      SparesTenants (updateJobs texts having set) :=
    sparesTenants_map _ fun _ _ => rfl
  have delete (texts : List String) (having : Job → Bool) : SparesTenants (deleteJobs texts having) :=
    sparesTenants_map _ fun _ _ => rfl
  cases r with
  | record t => exact absurd rfl (hr t)
  | setLimit t l => exact absurd rfl (hl t l)
  | enqueue id sub =>
    have h := tenants_insertJob (sub.toJob id now) c.database
    simp only [ask, enqueue, perform]
    split
    · rfl
    · generalize insertJob _ c.database = x at h ⊢
      obtain ⟨_ | _, d⟩ := x <;> exact h
  | dequeue worker queues => exact (sparesTenants_claim now worker queues).perform_postgres c
  | complete id result =>
    have h := (update [id] (fun j => j.id == id && j.status == .processing)
      (fun j => { j with status := .completed, completedAt := some now, result := result })).perform_postgres c
    simp only [ask, complete]
    generalize perform (clean (updateJobs _ _ _)) c = x at h ⊢
    obtain ⟨_ | _ | _, c'⟩ := x <;> exact h
  | fail id message =>
    simp only [ask, fail, transaction]
    split
    · rfl
    · rename_i a c' hbody
      split at hbody
      · cases hbody
      · split at hbody
        · cases hbody
        · rename_i job _ _
          have h := (update [message, id] (·.id == id) (afterFailure
            (rules.retry.decide job.attempts job.maxAttempts) now message)).perform_postgres c
          rw [← (Prod.mk.inj hbody).2]
          exact h
  | delete id => exact (delete _ _).perform_postgres c
  | get id => rfl
  | list filter => exact (sparesTenants_look _ _).perform_postgres c
  | stats queue =>
    simp only [ask, stats]
    split
    · rfl
    · exact (sparesTenants_look _ _).perform_postgres c
  | canProcess t =>
    exact (sparesTenants_bind _ fun _ => sparesTenants_map _ fun _ _ => rfl).perform_postgres c
  | requeueStale before => exact (update _ _ _).perform_postgres c
  | purge before => exact (delete _ _).perform_postgres c
  | close => rfl

/-! ## Tenants of a server -/

/-- The server takes the names of the tenant. -/
def PlainTenant (t : Tenant) : Prop := Plain [t.org, t.queue]

section
variable {texts : List String} {d : Database} {tenants : Keyed Tenant TenantRow}
  (ht : d.tenants = some tenants)
include ht

theorem tenantRows_ok (plain : Plain texts) : tenantRows texts d = .ok tenants := by
  rw [tenantRows, Database.tenantRows_ok ht, checkTexts_ok plain]
  rfl

theorem upsertTenant_refused {t : Tenant} (refused : ¬PlainTenant t) (new : TenantRow)
    (set : TenantRow → Except EngineFault TenantRow) :
    upsertTenant t new set d = .error nullCharacter := by
  rw [upsertTenant, tenantRows, Database.tenantRows_ok ht, checkTexts_refused refused]
  rfl

end

/-- The server holds the jobs of the store, and the windows and the limits of the tenants whose names
    it takes. -/
structure Copies (s : Volatile) (c : Connection) : Prop where
  jobs : Mirrors s c
  tenants : c.database.Meters PlainTenant s

section
variable {s s' : Volatile} {c : Connection} {rules : Rules} {now : Millis} {t : Tenant}
  (hc : Copies s c)
include hc

/-- A change of one tenant leaves the jobs alone. -/
theorem Copies.setTenant {tenants : Keyed Tenant TenantRow} (hj : s'.jobs = s.jobs)
    (hm : s'.Metered PlainTenant tenants) :
    Copies s' { c with database := c.database.setTenants tenants } :=
  ⟨hc.jobs.of_jobs hj rfl, tenants, rfl, hm⟩

section
variable (plain : PlainTenant t)
include plain

theorem Copies.record (late : rateWindow < now) {w : Window}
    (hw : ((s.windows.get? t).getD (.openAt now)).record? now = some w) :
    ∃ c', record now t c = (.ok (), c') ∧ Copies { s with windows := s.windows.put t w } c' := by
  obtain ⟨rows, identity, hready, -⟩ := hc.jobs
  obtain ⟨tenants, ht, hm⟩ := hc.tenants
  refine ⟨_, perform_clean hready ?_, hc.setTenant rfl (hm.counting plain w)⟩
  rw [upsertTenant, tenantRows_ok ht plain, Except.bind]
  rcases hm.record? plain late hw with ⟨hrow, rfl⟩ | ⟨row, hrow, hnext⟩
  · rw [hrow]
    rfl
  · rw [hrow, Option.map_some, countedIn_of_record? hnext]
    rfl

theorem Copies.setLimit (l : RateLimit) :
    ∃ c', setLimit t l c = (.ok (), c') ∧ Copies { s with limits := s.limits.put t l } c' := by
  obtain ⟨rows, identity, hready, -⟩ := hc.jobs
  obtain ⟨tenants, ht, hm⟩ := hc.tenants
  refine ⟨_, perform_clean hready ?_, hc.setTenant rfl (hm.limited plain l)⟩
  rw [upsertTenant, tenantRows_ok ht plain, Except.bind]
  cases tenants.get? t <;> rfl

theorem Copies.canProcess (late : rateWindow < now) (rules : Rules) {n : Int64}
    (hn : s.counted? now t = some n) :
    canProcess rules.limit now t c =
      (.ok ((s.limit rules t).admits n (clamp (s.processing t))), c) := by
  obtain ⟨rows, identity, hready, hmirrored, -⟩ := hc.jobs
  obtain ⟨tenants, ht, hm⟩ := hc.tenants
  rw [Postgres.canProcess, perform_clean hready (a := (s.processing t, tenants.get? t)) (d := c.database)]
  · exact Prod.ext (hm.admits plain late rules hn _) rfl
  · rw [jobRows_ok hready plain, ← hmirrored.processing t]
    simp only [Except.bind, tenantRows_ok ht plain, Except.map]

end

/-! A server refuses whatever is asked about other tenants. -/

section
variable (refused : ¬PlainTenant t)
include refused

theorem Copies.record_refused (now : Millis) :
    Postgres.record now t c = (.error (failed nullCharacter), c) := by
  obtain ⟨rows, identity, hready, -⟩ := hc.jobs
  obtain ⟨tenants, ht, -⟩ := hc.tenants
  exact perform_refused hready.isOpen (upsertTenant_refused ht refused _ _)

theorem Copies.setLimit_refused (l : RateLimit) :
    Postgres.setLimit t l c = (.error (failed nullCharacter), c) := by
  obtain ⟨rows, identity, hready, -⟩ := hc.jobs
  obtain ⟨tenants, ht, -⟩ := hc.tenants
  exact perform_refused hready.isOpen (upsertTenant_refused ht refused _ _)

theorem Copies.canProcess_refused (common : RateLimit) (now : Millis) :
    Postgres.canProcess common now t c = (.error (failed nullCharacter), c) := by
  obtain ⟨rows, identity, hready, -⟩ := hc.jobs
  rw [Postgres.canProcess, perform_refused (f := nullCharacter) hready.isOpen]
  · rfl
  · rw [jobRows_refused hready refused]
    rfl

end

end

end Postgres

end JobQueue
