/-
  The three kinds of stores admit the same jobs.

  Limits are set, jobs are counted and jobs are worked on in any order; whenever
  a store is asked whether one more job of a tenant may run, the volatile store
  and a database file say the same, and so does a database server that takes the
  names of the tenant (`stores_admit_alike`).  It refuses names with a null
  character, which the others take (`null_character_stops_admission`).

  A database copies a volatile store if it holds its jobs, its windows and its
  limits (`Copies`), a server those of the tenants whose names it takes.  Every
  request leads from a copy to a copy, on a clock whose readings are all beyond
  the length of a window: before that, the row of a tenant without a window would
  look as if it had one.
-/
import JobQueue.Proofs.Store.Tenants

namespace JobQueue

open Volatile

/-- Two stores whose states correspond do so after the same calls. -/
theorem Store.after_related {σ τ : Type} {store : Store σ} {other : Store τ} {R : σ → τ → Prop}
    {s : σ} {t : τ} (start : R s t) {calls : List Call}
    (step : ∀ before c, before ++ [c] <+: calls → R (store.after before s) (other.after before t) →
      R (store.ask c.now c.request (store.after before s)).2
        (other.ask c.now c.request (other.after before t)).2)
    {before : List Call} (hp : before <+: calls) :
    R (store.after before s) (other.after before t) := by
  induction before using List.reverseRecOn with
  | nil => exact start
  | append_singleton before c ih =>
    rw [after_append, after_append]
    exact step before c hp (ih ((List.prefix_append before [c]).trans hp))

/-! ## Requests that are not about jobs -/

namespace Volatile

section
variable {s : Volatile} {rules : Rules} {now : Millis}

theorem jobs_of_stats (queue : String) : (ask rules now (.stats queue) s).2.jobs = s.jobs := by
  cases (step_ask rfl : Step rules now s (.stats queue) _ _) with
  | still _ _ jobs => exact jobs

theorem jobs_of_canProcess (t : Tenant) : (ask rules now (.canProcess t) s).2.jobs = s.jobs := by
  cases (step_ask rfl : Step rules now s (.canProcess t) _ _) with
  | still _ _ jobs => exact jobs

/-- An answer that does not overflow compares a count with the limit. -/
theorem canProcess_of_steady (healthy : s.poisoned = false) {t : Tenant}
    (steady : (ask rules now (.canProcess t) s).1 ≠ .error .overflow) :
    ∃ n, s.counted? now t = some n ∧
      (ask rules now (.canProcess t) s).1 =
        .ok ((s.limit rules t).admits n (clamp (s.processing t))) := by
  have hcan : ask rules now (.canProcess t) s = _ := canProcess_of_healthy healthy rules now t
  cases hn : s.counted? now t with
  | none =>
    rw [hn] at hcan
    exact absurd (congrArg Prod.fst hcan) steady
  | some n =>
    rw [hn] at hcan
    exact ⟨n, rfl, congrArg Prod.fst hcan⟩

/-- A count that does not overflow opens a window or continues one. -/
theorem record_of_steady (healthy : s.poisoned = false) {t : Tenant}
    (steady : (ask rules now (.record t) s).1 ≠ .error .overflow) :
    ∃ w, ((s.windows.get? t).getD (.openAt now)).record? now = some w ∧
      (ask rules now (.record t) s).2 = { s with windows := s.windows.put t w } := by
  have hrec : ask rules now (.record t) s = _ := record_of_healthy healthy now t
  cases hw : ((s.windows.get? t).getD (.openAt now)).record? now with
  | none =>
    rw [hw] at hrec
    exact absurd (congrArg Prod.fst hrec) steady
  | some w =>
    rw [hw] at hrec
    exact ⟨w, rfl, congrArg Prod.snd hrec⟩

theorem setLimit_of_healthy (healthy : s.poisoned = false) (t : Tenant) (l : RateLimit) :
    (ask rules now (.setLimit t l) s).2 = { s with limits := s.limits.put t l } :=
  congrArg Prod.snd (hold_of_ok healthy rfl)

end

end Volatile

/-! ## Copies -/

namespace Sqlite

section
variable {s s' : Volatile} {c : Connection} {rules : Rules} {now : Millis} {r : Request}

theorem Copies.of_eq (hc : Copies s c) (hj : s'.jobs = s.jobs) (hw : s'.windows = s.windows)
    (hl : s'.limits = s.limits) : Copies s' c :=
  ⟨hc.jobs.of_jobs hj rfl, hc.tenants.of_eq rfl hw hl⟩

theorem stats_snd (hc : Copies s c) (queue : String) : (ask rules now (.stats queue) c).2 = c := by
  obtain ⟨rows, identity, hready, -⟩ := hc.jobs
  simp only [ask, stats]
  split
  · rfl
  · rw [perform_look hready]

variable (hc : Copies s c) (valid : s.Valid) (healthy : s.poisoned = false)
  (steady : (Volatile.ask rules now r s).1 ≠ .error .overflow)
include hc valid healthy steady

theorem Copies.aboutJobs (hr : r.isAboutJobs = true)
    (fresh : ∀ id sub, r = .enqueue id sub → s.jobs.get? id = none) :
    Copies (Volatile.ask rules now r s).2 (ask rules now r c).2 := by
  have hrec : ∀ t, r ≠ .record t := by rintro t rfl; cases hr
  have hlim : ∀ t l, r ≠ .setLimit t l := by rintro t l rfl; cases hr
  obtain ⟨hw, hl⟩ := rates_ask (s := s) rules now hrec hlim
  exact ⟨(alike_ask healthy hc.jobs valid hr fresh steady).state,
    hc.tenants.of_eq (tenants_ask rules now hrec hlim c) hw hl⟩

/-- **A file that copies a store does so after every request.** -/
theorem Copies.ask (late : rateWindow < now) (closed : r ≠ .close)
    (fresh : ∀ id sub, r = .enqueue id sub → s.jobs.get? id = none) :
    Copies (Volatile.ask rules now r s).2 (Sqlite.ask rules now r c).2 := by
  cases r with
  | close => exact absurd rfl closed
  | stats queue =>
    obtain ⟨hw, hl⟩ := rates_ask (s := s) rules now (r := .stats queue) nofun nofun
    rw [stats_snd hc]
    exact hc.of_eq (jobs_of_stats queue) hw hl
  | canProcess t =>
    obtain ⟨hw, hl⟩ := rates_ask (s := s) rules now (r := .canProcess t) nofun nofun
    obtain ⟨n, hn, -⟩ := canProcess_of_steady healthy steady
    rw [show Sqlite.ask rules now (.canProcess t) c = _ from hc.canProcess late rules hn]
    exact hc.of_eq (jobs_of_canProcess t) hw hl
  | record t =>
    obtain ⟨w, hw, hs⟩ := record_of_steady healthy steady
    obtain ⟨c', hrec, hc'⟩ := hc.record late hw
    rw [hs, show Sqlite.ask rules now (.record t) c = _ from hrec]
    exact hc'
  | setLimit t l =>
    obtain ⟨c', hset, hc'⟩ := hc.setLimit t l
    rw [setLimit_of_healthy healthy, show Sqlite.ask rules now (.setLimit t l) c = _ from hset]
    exact hc'
  | _ => exact hc.aboutJobs valid healthy steady rfl fresh

end

end Sqlite

namespace Postgres

/-- Looking at the rows of the jobs changes nothing, whatever comes of it. -/
theorem perform_look_snd {α : Type} (texts : List String) (read : List Ranked → Except EngineFault α)
    (c : Connection) : (perform (clean (look texts read)) c).2 = c := by
  unfold perform clean look
  split
  · rfl
  · cases jobRows texts c.database with
    | error f => rfl
    | ok rows => cases hread : read rows.1 <;> simp [Except.bind, Except.map, hread]

theorem stats_snd (rules : Rules) (now : Millis) (queue : String) (c : Connection) :
    (ask rules now (.stats queue) c).2 = c := by
  simp only [ask, stats]
  split
  · rfl
  · exact perform_look_snd ..

section
variable {s s' : Volatile} {c : Connection} {rules : Rules} {now : Millis} {r : Request}

theorem Copies.of_eq (hc : Copies s c) (hj : s'.jobs = s.jobs) (hw : s'.windows = s.windows)
    (hl : s'.limits = s.limits) : Copies s' c :=
  ⟨hc.jobs.of_jobs hj rfl, hc.tenants.of_eq rfl hw hl⟩

/-- The server has no row for a tenant whose names it refuses. -/
theorem Copies.of_refused (hc : Copies s c) {t : Tenant} (refused : ¬PlainTenant t)
    (hj : s'.jobs = s.jobs) (same : s.SameBut t s') : Copies s' c := by
  obtain ⟨tenants, ht, hm⟩ := hc.tenants
  exact ⟨hc.jobs.of_jobs hj rfl, tenants, ht, hm.of_unserved refused same⟩

variable (hc : Copies s c) (valid : s.Valid) (healthy : s.poisoned = false)
  (steady : (Volatile.ask rules now r s).1 ≠ .error .overflow)
include hc valid healthy steady

/-- A request about jobs that the server refuses for its texts changes the store only if the store
    answers something else. -/
theorem Copies.aboutJobs (hr : r.isAboutJobs = true)
    (agreed : Plain r.texts ∨
      wordless (Volatile.ask rules now r s).1 = wordless (ask rules now r c).1)
    (fresh : ∀ id sub, r = .enqueue id sub → s.jobs.get? id = none) :
    Copies (Volatile.ask rules now r s).2 (ask rules now r c).2 := by
  have hrec : ∀ t, r ≠ .record t := by rintro t rfl; cases hr
  have hlim : ∀ t l, r ≠ .setLimit t l := by rintro t l rfl; cases hr
  obtain ⟨hw, hl⟩ := rates_ask (s := s) rules now hrec hlim
  by_cases plain : Plain r.texts
  · exact ⟨(alike_ask healthy hc.jobs valid hr plain fresh steady).state,
      hc.tenants.of_eq (tenants_ask rules now hrec hlim c) hw hl⟩
  · obtain ⟨rows, identity, hready, -⟩ := hc.jobs
    obtain ⟨f, hf, -⟩ := answered_of_not_plain hready rules now hr plain
    have hsame := agreed.resolve_left plain
    rw [hf] at hsame ⊢
    cases ha : (Volatile.ask rules now r s).1 with
    | ok a => rw [ha] at hsame; cases hsame
    | error f' => exact hc.of_eq ((step_ask rfl).jobs_of_error ha) hw hl

/-- **A server that copies a store does so after every request.** -/
theorem Copies.ask (late : rateWindow < now) (closed : r ≠ .close)
    (agreed : r.isAboutJobs = true → Plain r.texts ∨
      wordless (Volatile.ask rules now r s).1 = wordless (Postgres.ask rules now r c).1)
    (fresh : ∀ id sub, r = .enqueue id sub → s.jobs.get? id = none) :
    Copies (Volatile.ask rules now r s).2 (Postgres.ask rules now r c).2 := by
  cases r with
  | close => exact absurd rfl closed
  | stats queue =>
    obtain ⟨hw, hl⟩ := rates_ask (s := s) rules now (r := .stats queue) nofun nofun
    rw [stats_snd]
    exact hc.of_eq (jobs_of_stats queue) hw hl
  | canProcess t =>
    obtain ⟨hw, hl⟩ := rates_ask (s := s) rules now (r := .canProcess t) nofun nofun
    have hsnd : (Postgres.ask rules now (.canProcess t) c).2 = c := by
      by_cases plain : PlainTenant t
      · obtain ⟨n, hn, -⟩ := canProcess_of_steady healthy steady
        exact congrArg Prod.snd (hc.canProcess plain late rules hn)
      · exact congrArg Prod.snd (hc.canProcess_refused plain rules.limit now)
    rw [hsnd]
    exact hc.of_eq (jobs_of_canProcess t) hw hl
  | record t =>
    obtain ⟨w, hw, hs⟩ := record_of_steady healthy steady
    rw [hs]
    by_cases plain : PlainTenant t
    · obtain ⟨c', hrec, hc'⟩ := hc.record plain late hw
      rw [show Postgres.ask rules now (.record t) c = _ from hrec]
      exact hc'
    · rw [show Postgres.ask rules now (.record t) c = _ from hc.record_refused plain now]
      exact hc.of_refused plain rfl (sameBut_window s t w)
  | setLimit t l =>
    rw [setLimit_of_healthy healthy]
    by_cases plain : PlainTenant t
    · obtain ⟨c', hset, hc'⟩ := hc.setLimit plain l
      rw [show Postgres.ask rules now (.setLimit t l) c = _ from hset]
      exact hc'
    · rw [show Postgres.ask rules now (.setLimit t l) c = _ from hc.setLimit_refused plain l]
      exact hc.of_refused plain rfl (sameBut_limit s t l)
  | _ => exact hc.aboutJobs valid healthy steady rfl (agreed rfl) fresh

end

end Postgres

/-! ## Runs -/

/-- Two stores answer the calls about jobs alike, each in the state that the calls before led to. -/
def Store.AgreeOnJobs {σ τ : Type} (store : Store σ) (other : Store τ) (s : σ) (t : τ)
    (calls : List Call) : Prop :=
  ∀ (before : List Call) (c : Call), before ++ [c] <+: calls → c.request.isAboutJobs = true →
    wordless (store.ask c.now c.request (store.after before s)).1 =
      wordless (other.ask c.now c.request (other.after before t)).1

section
variable {rules : Rules} {calls : List Call}
  (unknown : ∀ (before : List Call) (c : Call), before ++ [c] <+: calls →
    ∀ id sub, c.request = .enqueue id sub → (replay rules before).2.jobs.get? id = none)
  (late : ∀ c ∈ calls, rateWindow < c.now)
  (room : ∀ (before : List Call) (c : Call), before ++ [c] <+: calls →
    (replay rules before).2.RoomFor c.now c.request)

include unknown in
theorem valid_replay {before : List Call} (hp : before <+: calls) : (replay rules before).2.Valid := by
  induction before using List.reverseRecOn with
  | nil => exact valid_empty
  | append_singleton before c ih =>
    rw [replay_append]
    exact (ih ((List.prefix_append before [c]).trans hp)).step (step_ask rfl) (unknown before c hp)

include late room

/-- A call finds a store that is not poisoned, and does not overflow. -/
theorem steady_call {before : List Call} {c : Call} (hp : before ++ [c] <+: calls) :
    (replay rules before).2.poisoned = false ∧
    (Volatile.ask rules c.now c.request (replay rules before).2).1 ≠ .error .overflow := by
  have trace := Trace.replay rules before
  have since : ∀ c ∈ calls, 0 ≤ c.now.toInt := by
    intro c hc
    have hlate := Window.toInt_of_late (late c hc)
    have hw := rateWindow_toInt
    omega
  have hbefore : before <+: calls := (List.prefix_append before [c]).trans hp
  have readings : ∀ e ∈ (replay rules before).1, 0 ≤ e.now.toInt := by
    intro e he
    obtain ⟨past, c', hc', rfl⟩ := mem_replay he
    exact since c' (hbefore.subset (hc'.subset (by simp)))
  have healthy : (replay rules before).2.poisoned = false := by
    refine trace.healthy_of_roomFor readings fun e he => ?_
    obtain ⟨past, c', hc', rfl⟩ := mem_replay he
    exact room past c' (hc'.trans hbefore)
  exact ⟨healthy,
    steady_of_room healthy (trace.sinceEpoch readings) (since c (hp.subset (by simp))) (room before c hp)⟩

variable (closed : ∀ c ∈ calls, c.request ≠ .close)
include unknown closed

theorem file_copies {file : Connection} {i : Nat} (hf : file.Ready [] i)
    (tenants : file.database.tenants = some []) {before : List Call} (hp : before <+: calls) :
    Sqlite.Copies (replay rules before).2 ((Sqlite.store rules).after before file) := by
  have start : Sqlite.Copies .empty file :=
    ⟨⟨[], i, hf, mirrored_empty⟩, [], tenants, metered_empty _⟩
  rw [← after_volatile]
  refine Store.after_related start (fun before c hp hc => ?_) hp
  have valid := valid_replay unknown ((List.prefix_append before [c]).trans hp)
  obtain ⟨healthy, steady⟩ := steady_call late room hp
  rw [after_volatile] at hc ⊢
  exact hc.ask valid healthy steady (late c (hp.subset (by simp))) (closed c (hp.subset (by simp)))
    (unknown before c hp)

variable {server : Connection} {j : Nat} (hs : server.Ready [] j)
  (tenants : server.database.tenants = some [])
include hs tenants

/-- A server copies the volatile store as long as calls about jobs have texts that it takes, or are
    answered alike. -/
theorem server_copies
    (agreed : ∀ (before : List Call) (c : Call), before ++ [c] <+: calls →
      c.request.isAboutJobs = true → Postgres.Plain c.request.texts ∨
        wordless ((Volatile.store rules).ask c.now c.request
            ((Volatile.store rules).after before .empty)).1 =
          wordless ((Postgres.store rules).ask c.now c.request
            ((Postgres.store rules).after before server)).1)
    {before : List Call} (hp : before <+: calls) :
    Postgres.Copies (replay rules before).2 ((Postgres.store rules).after before server) := by
  have start : Postgres.Copies .empty server :=
    ⟨⟨[], j, hs, mirrored_empty, fun x hx => by cases hx⟩, [], tenants, metered_empty _⟩
  rw [← after_volatile]
  refine Store.after_related start (fun before c hp hc => ?_) hp
  have valid := valid_replay unknown ((List.prefix_append before [c]).trans hp)
  obtain ⟨healthy, steady⟩ := steady_call late room hp
  have hagreed := agreed before c hp
  rw [after_volatile] at hc hagreed ⊢
  exact hc.ask valid healthy steady (late c (hp.subset (by simp))) (closed c (hp.subset (by simp)))
    hagreed (unknown before c hp)

/-- The volatile store and a server agree on jobs as long as their texts are ones that the server
    takes. -/
theorem agreeOnJobs_of_plain
    (plain : ∀ c ∈ calls, c.request.isAboutJobs = true → Postgres.Plain c.request.texts) :
    (Volatile.store rules).AgreeOnJobs (Postgres.store rules) .empty server calls := by
  intro before c hp hr
  have hbefore := (List.prefix_append before [c]).trans hp
  have hplain := plain c (hp.subset (by simp)) hr
  obtain ⟨healthy, steady⟩ := steady_call late room hp
  have hc := server_copies unknown late room closed hs tenants
    (fun past c' hp' hr' => .inl (plain c' (hp'.subset (by simp)) hr')) hbefore
  rw [after_volatile]
  exact (Postgres.alike_ask healthy hc.jobs (valid_replay unknown hbefore) hr hplain
    (unknown before c hp) steady).answer

omit hs tenants in
/-- **The three kinds of stores admit the same jobs.**  In every sequence of calls that closes nothing
    and gives no name that is taken, at readings of the clock beyond the length of a window and with
    room for what is counted, each question whether one more job of a tenant may run gets the same
    answer from the volatile store and a database file, if each begins without jobs and tenants.  A
    database server that agrees with the volatile store on the jobs gives this answer too, if it
    takes the names of the tenant; if it does not, it refuses the question. -/
theorem stores_admit_alike {file : Connection} {i : Nat} (hf : file.Ready [] i)
    (hft : file.database.tenants = some []) {before : List Call} {now : Millis} {t : Tenant}
    (hp : before ++ [⟨now, .canProcess t⟩] <+: calls) :
    ∃ admitted : Bool,
      ((Volatile.store rules).ask now (.canProcess t)
        ((Volatile.store rules).after before .empty)).1 = .ok admitted ∧
      ((Sqlite.store rules).ask now (.canProcess t)
        ((Sqlite.store rules).after before file)).1 = .ok admitted ∧
      ∀ {server : Connection} {j : Nat}, server.Ready [] j → server.database.tenants = some [] →
        (Volatile.store rules).AgreeOnJobs (Postgres.store rules) .empty server calls →
        (Postgres.PlainTenant t → ((Postgres.store rules).ask now (.canProcess t)
          ((Postgres.store rules).after before server)).1 = .ok admitted) ∧
        (¬Postgres.PlainTenant t → ((Postgres.store rules).ask now (.canProcess t)
          ((Postgres.store rules).after before server)).1 =
            .error (Postgres.failed Postgres.nullCharacter)) := by
  have hbefore : before <+: calls := (List.prefix_append before _).trans hp
  have hlate : rateWindow < now := late ⟨now, .canProcess t⟩ (hp.subset (by simp))
  obtain ⟨healthy, steady⟩ := steady_call late room hp
  obtain ⟨n, hn, hv⟩ := canProcess_of_steady healthy steady
  have hfile := file_copies unknown late room closed hf hft hbefore
  refine ⟨_, by rw [after_volatile]; exact hv, ?_, fun hs hst agreed => ?_⟩
  · exact congrArg Prod.fst (hfile.canProcess hlate rules hn)
  · have hserver := server_copies unknown late room closed hs hst
      (fun past c hp hr => .inr (agreed past c hp hr)) hbefore
    exact ⟨fun plain => congrArg Prod.fst (hserver.canProcess plain hlate rules hn),
      fun refused => congrArg Prod.fst (hserver.canProcess_refused refused rules.limit now)⟩

end

/-- What holds of every place in a sequence of calls holds of every prefix. -/
theorem forall_prefix {P : List Call → Call → Prop} {calls : List Call}
    (h : ∀ i : Fin calls.length, P (calls.take i) calls[i]) (before : List Call) (c : Call)
    (hp : before ++ [c] <+: calls) : P before c := by
  obtain ⟨rest, rfl⟩ := hp
  have := h ⟨before.length, by simp⟩
  simpa using this

/-- A limit is set before the first job is counted, and another one after; the clock goes back into
    the first window after the second was asked for.  The server refuses the names of a third
    tenant. -/
def limitFirst : List Call :=
  let a : Tenant := ⟨"o", "a"⟩
  let b : Tenant := ⟨"o", "b"⟩
  let c : Tenant := ⟨"o\x00", "a"⟩
  [⟨9000000, .setLimit a ⟨2, 1⟩⟩, ⟨9000000, .canProcess a⟩,
    ⟨9000000, .enqueue "x" ⟨"a", "t", "o", .empty, {}⟩⟩, ⟨9000001, .dequeue "w" .any⟩,
    ⟨9000001, .record a⟩, ⟨9000002, .record a⟩, ⟨9000002, .record b⟩, ⟨9000002, .setLimit b ⟨0, 0⟩⟩,
    ⟨9000002, .record c⟩, ⟨9000003, .canProcess b⟩, ⟨9000003, .fail "x" "no"⟩,
    ⟨12600002, .canProcess a⟩, ⟨9000003, .canProcess c⟩, ⟨9000004, .stats "a"⟩,
    ⟨9000004, .canProcess a⟩]

theorem stores_admit_alike_limitFirst :
    ((Volatile.store .default).ask 12600002 (.canProcess ⟨"o", "a"⟩)
      ((Volatile.store .default).after (limitFirst.take 11) .empty)).1 = .ok true ∧
    ((Volatile.store .default).ask 9000004 (.canProcess ⟨"o", "a"⟩)
      ((Volatile.store .default).after (limitFirst.take 14) .empty)).1 = .ok false ∧
    ((Sqlite.store .default).ask 9000004 (.canProcess ⟨"o", "a"⟩)
      ((Sqlite.store .default).after (limitFirst.take 14) (freshConnection .sqlite))).1 = .ok false ∧
    ((Postgres.store .default).ask 9000004 (.canProcess ⟨"o", "a"⟩)
      ((Postgres.store .default).after (limitFirst.take 14) (freshConnection .postgres))).1 =
        .ok false ∧
    ((Postgres.store .default).ask 9000003 (.canProcess ⟨"o\x00", "a"⟩)
      ((Postgres.store .default).after (limitFirst.take 12) (freshConnection .postgres))).1 =
        .error (Postgres.failed Postgres.nullCharacter) := by
  have names : (limitFirst.filterMap Call.name?).Nodup := by decide
  have unknown : ∀ before c, before ++ [c] <+: limitFirst → ∀ id sub, c.request = .enqueue id sub →
      (replay .default before).2.jobs.get? id = none := fun _ _ hp => unknown_of_nodup names hp
  have late : ∀ c ∈ limitFirst, rateWindow < c.now := by decide
  have room : ∀ before c, before ++ [c] <+: limitFirst →
      (replay .default before).2.RoomFor c.now c.request := forall_prefix (by decide)
  have closed : ∀ c ∈ limitFirst, c.request ≠ .close := by decide
  have plain : ∀ c ∈ limitFirst, c.request.isAboutJobs = true → Postgres.Plain c.request.texts := by
    simp [limitFirst, Postgres.Plain, Request.isAboutJobs, Request.texts, QueueSet.any]
  have hf : (freshConnection .sqlite).Ready [] 1 := ⟨rfl, rfl, rfl⟩
  have hs : (freshConnection .postgres).Ready [] 1 := ⟨rfl, rfl, rfl⟩
  have hp : limitFirst.take 14 ++ [⟨9000004, .canProcess ⟨"o", "a"⟩⟩] <+: limitFirst := ⟨[], rfl⟩
  obtain ⟨admitted, hv, hfile, hserver⟩ := stores_admit_alike unknown late room closed hf rfl hp
  have hno : ((Volatile.store .default).ask 9000004 (.canProcess ⟨"o", "a"⟩)
      ((Volatile.store .default).after (limitFirst.take 14) .empty)).1 = .ok false := by decide
  obtain rfl := Except.ok.inj (hv.symm.trans hno)
  have agreed := agreeOnJobs_of_plain unknown late room closed hs rfl plain
  have hp' : limitFirst.take 12 ++ [⟨9000003, .canProcess ⟨"o\x00", "a"⟩⟩] <+: limitFirst :=
    ⟨limitFirst.drop 13, rfl⟩
  obtain ⟨_, -, -, hrefused⟩ := stores_admit_alike unknown late room closed hf rfl hp'
  exact ⟨by decide, hno, hfile,
    (hserver hs rfl agreed).1 (by simp [Postgres.PlainTenant, Postgres.Plain]),
    (hrefused hs rfl agreed).2 fun plain => plain "o\x00" List.mem_cons_self (by decide)⟩

/-- A server refuses to say whether one more job may run if the name of the organization has a null
    character; the other stores say that it may. -/
theorem null_character_stops_admission :
    rateWindow < (9000000 : Millis) ∧
    ((Volatile.store .default).ask 9000000 (.canProcess ⟨"o\x00", "q"⟩) .empty).1 = .ok true ∧
    ((Sqlite.store .default).ask 9000000 (.canProcess ⟨"o\x00", "q"⟩)
      (freshConnection .sqlite)).1 = .ok true ∧
    ((Postgres.store .default).ask 9000000 (.canProcess ⟨"o\x00", "q"⟩)
      (freshConnection .postgres)).1 = .error (Postgres.failed Postgres.nullCharacter) :=
  ⟨by decide, by decide, by decide, by decide +kernel⟩

end JobQueue
