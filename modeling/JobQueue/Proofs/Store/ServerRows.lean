/-
  The rows of a database server, request by request.

  What holds of a file holds of a server: its rows come from the answer to
  each request (`Table.answered`).  A server refuses more: texts with a null
  character, and results that its numbers cannot hold.
-/
import JobQueue.Proofs.Store.FileRows

namespace JobQueue.Postgres

/-- The rows of a server that can be written to, in the order of their identities. -/
structure Table (c : Connection) (rows : List Ranked) (identity : Nat) : Prop where
  writable : c.isReadOnly = false
  jobs : c.database.jobs = some (.current rows identity)
  below : ∀ x ∈ rows, x.rank < identity
  valid : (Volatile.ofRows rows).Valid

theorem Table.ready {c : Connection} {rows : List Ranked} {identity : Nat}
    (h : Table c rows identity) (ho : c.isOpen = true) : c.Ready rows identity :=
  ⟨ho, h.writable, h.jobs⟩

theorem Connection.ready_table {c : Connection} {identity : Nat} (h : c.Ready [] identity) :
    Table c [] identity where
  writable := h.writable
  jobs := h.jobs
  below x hx := by cases hx
  valid := Volatile.mirrored_empty.valid_ofRows Volatile.valid_empty

/-! ## Requests that are refused -/

theorem perform_closed {α : Type} (statement : Database → Except EngineFault α × Database)
    {c : Connection} (h : c.isOpen = false) : perform statement c = (.error (failed .closed), c) := by
  simp [perform, h]

theorem perform_error {α : Type} {statement : Database → Except EngineFault α × Database}
    {c : Connection} {f : EngineFault} (ho : c.isOpen = true)
    (hf : statement c.database = (.error f, c.database)) :
    perform statement c = (.error (failed f), c) := by
  rw [perform, if_neg (by simp [ho]), hf]

/-- A statement that fails without any trace changes nothing. -/
theorem perform_refused {α : Type} {statement : Database → Except EngineFault (α × Database)}
    {c : Connection} {f : EngineFault} (ho : c.isOpen = true) (hf : statement c.database = .error f) :
    perform (clean statement) c = (.error (failed f), c) :=
  perform_error ho (by rw [clean, hf])

/-- A closed connection refuses every request about jobs. -/
theorem ask_closed {c : Connection} (h : c.isOpen = false) (rules : Rules) (now : Millis)
    {r : Request} (hr : r.isAboutJobs = true) : ask rules now r c = (.error (failed .closed), c) := by
  cases r with
  | enqueue => simp [ask, enqueue, perform_closed _ h]
  | dequeue => simp [ask, dequeue, perform_closed _ h]
  | complete => simp [ask, complete, perform_closed _ h]
  | fail =>
    simp [ask, fail, transaction, fetchExisting, fetch, perform_closed _ h, Except.bind]
  | delete => simp [ask, perform_closed _ h, Except.map]
  | get => simp [ask, fetchExisting, fetch, perform_closed _ h, Except.bind]
  | list => simp [ask, perform_closed _ h]
  | requeueStale => simp [ask, perform_closed _ h]
  | purge => simp [ask, perform_closed _ h]
  | stats | canProcess | record | setLimit | close => cases hr

section
variable {c : Connection} {rows : List Ranked} {identity : Nat} (h : c.Ready rows identity)
include h

theorem jobRows_refused {texts : List String} (ht : ¬Plain texts) :
    jobRows texts c.database = .error nullCharacter := by
  rw [jobRows, h.jobRows, checkTexts_refused ht]
  rfl

theorem look_refused {α : Type} {texts : List String} (ht : ¬Plain texts)
    (read : List Ranked → Except EngineFault α) :
    look texts read c.database = .error nullCharacter := by
  rw [look, jobRows_refused h ht]
  rfl

theorem updateJobs_refused {texts : List String} (ht : ¬Plain texts) (having : Job → Bool)
    (set : Job → Job) : updateJobs texts having set c.database = .error nullCharacter := by
  rw [updateJobs, jobRows_refused h ht]
  rfl

theorem fetchExisting_refused {id : String} (ht : ¬Plain [id]) :
    fetchExisting id c = .error (failed nullCharacter) := by
  rw [fetchExisting, fetch, perform_refused h.isOpen (look_refused h ht _)]
  rfl

/-- A failure that is not written down leaves the job in its claim; only a breakdown does that to a
    job that is being processed. -/
theorem fail_refused (retry : RetryPolicy) (now : Millis) {id message : String}
    (ht : ¬Plain [id, message]) :
    ∃ f, fail retry now id message c = (.error f, c) ∧
      ∀ j, Rows.byId? id rows = some j → j.status = .processing → f.isBreakdown = true := by
  by_cases hi : Plain [id]
  · have hread := fetchExisting_ready h hi
    cases hby : Rows.byId? id rows with
    | none =>
      rw [hby] at hread
      refine ⟨.error (.notFound (.job id)), ?_, fun j hj => by cases hj⟩
      simp only [fail, transaction, hread]
    | some j =>
      rw [hby] at hread
      by_cases hb : j.status = .processing
      · have ht' : ¬Plain [message, id] := fun hp => ht (hp.of_mem (by simp))
        refine ⟨failed nullCharacter, ?_, fun _ _ _ => rfl⟩
        simp only [fail, transaction, hread, hb, ne_eq, not_true, if_false]
        rw [perform_refused h.isOpen (updateJobs_refused h ht' _ _)]
        rfl
      · refine ⟨.error (.invalidState (.notProcessing .fail id j.status)), ?_, fun j' hj hb' => ?_⟩
        · simp only [fail, transaction, hread, ne_eq, hb, not_false_eq_true, if_true]
        · obtain rfl := Option.some.inj hj
          exact absurd hb' hb
  · refine ⟨failed nullCharacter, ?_, fun _ _ _ => rfl⟩
    simp only [fail, transaction, fetchExisting_refused h hi]

/-- The server refuses texts with a null character. -/
theorem answered_of_not_plain (rules : Rules) (now : Millis) {r : Request}
    (hr : r.isAboutJobs = true) (ht : ¬Plain r.texts) :
    ∃ f, ask rules now r c = (.error f, c) ∧ Answered rules now r rows (.error f) rows := by
  have broken : ∀ f, ask rules now r c = (.error (failed f), c) →
      ∃ f, ask rules now r c = (.error f, c) ∧ Answered rules now r rows (.error f) rows :=
    fun f hf => ⟨failed f, hf, .of_brokeDown ⟨_, rfl, rfl⟩⟩
  cases r with
  | enqueue id sub =>
    have hj : jobRows [(sub.toJob id now).id, (sub.toJob id now).queue, (sub.toJob id now).type,
        (sub.toJob id now).org] c.database = .error nullCharacter := jobRows_refused h ht
    exact broken nullCharacter (perform_error h.isOpen (by rw [insertJob, hj]))
  | dequeue worker queues =>
    refine broken nullCharacter (perform_refused h.isOpen ?_)
    simp only [jobRows_refused h (show ¬Plain (worker :: queues.names) from ht), Except.bind]
  | complete id result =>
    have ht : ¬Plain [id] := ht
    refine broken nullCharacter ?_
    rw [ask, complete, perform_refused h.isOpen (updateJobs_refused h ht _ _)]
  | fail id message =>
    obtain ⟨f, hf, hbreaks⟩ := fail_refused h rules.retry now ht
    refine ⟨f, hf, .still rfl fun id' hid => ⟨f, rfl, ?_⟩⟩
    cases hid
    exact hbreaks
  | delete id =>
    have hdelete : deleteJobs [id] (·.id == id) c.database = .error nullCharacter := by
      rw [deleteJobs, jobRows_refused h (show ¬Plain [id] from ht)]
      rfl
    refine broken nullCharacter ?_
    simp only [ask, perform_refused h.isOpen hdelete]
    rfl
  | get id => exact broken nullCharacter (by rw [ask, fetchExisting_refused h ht])
  | list filter =>
    exact broken nullCharacter (perform_refused h.isOpen (look_refused h ht _))
  | requeueStale before => exact absurd (fun t ht => by cases ht) ht
  | purge before => exact absurd (fun t ht => by cases ht) ht
  | stats | canProcess | record | setLimit | close => cases hr

/-- A claim that meets a job whose attempts cannot be counted further is refused. -/
theorem dequeue_of_full {now : Millis} {worker : String} {queues : QueueSet} {x : Ranked}
    (ht : Plain (worker :: queues.names))
    (hx : (Rows.inOrder (Rows.isDue now queues) rows).head? = some x)
    (hf : succ32? x.job.attempts = none) :
    dequeue now worker queues c = (.error (failed integerOutOfRange), c) := by
  refine perform_refused h.isOpen ?_
  simp [jobRows_ok h ht, hx, claimed, hf, Except.bind, Except.map]

end

/-! ## Requests on a server -/

section
variable {c : Connection} {rows : List Ranked} {identity : Nat} (h : Table c rows identity)
include h

/-- A statement that leaves the rows of the jobs alone. -/
theorem Table.perform {α : Type} {statement : Database → Except EngineFault (α × Database)}
    (hs : ∀ a d, statement c.database = .ok (a, d) → d.jobs = c.database.jobs) :
    Table (perform (clean statement) c).2 rows identity := by
  cases ho : c.isOpen with
  | false => rw [perform_closed _ ho]; exact h
  | true =>
    cases hd : statement c.database with
    | error f => rw [perform_refused ho hd]; exact h
    | ok r =>
      rw [perform_clean (h.ready ho) hd]
      exact ⟨h.writable, (hs r.1 r.2 hd).trans h.jobs, h.below, h.valid⟩

theorem Table.perform_upsertTenant (t : Tenant) (new : TenantRow)
    (set : TenantRow → Except EngineFault TenantRow) :
    Table (Postgres.perform (clean (upsertTenant t new set)) c).2 rows identity := by
  refine h.perform fun a d hd => ?_
  unfold upsertTenant at hd
  cases ht : tenantRows [t.org, t.queue] c.database with
  | error f => simp [ht, Except.bind] at hd
  | ok tenants =>
    cases hrow : ((tenants.get? t).map set).getD (.ok new) with
    | error f => simp [ht, hrow, Except.bind, Except.map] at hd
    | ok row =>
      simp only [ht, hrow, Except.bind, Except.map, Except.ok.injEq, Prod.mk.injEq] at hd
      rw [← hd.2]
      rfl

/-- A request that is not about jobs leaves their rows alone. -/
theorem Table.ask_other (rules : Rules) (now : Millis) {r : Request} (hr : r.isAboutJobs = false) :
    Table (ask rules now r c).2 rows identity := by
  cases r with
  | stats queue =>
    simp only [Postgres.ask, stats]
    split
    · exact h
    · rename_i since _
      refine h.perform fun a d hd => ?_
      unfold look at hd
      cases hj : jobRows [queue] c.database with
      | error f => simp [hj, Except.bind] at hd
      | ok r =>
        cases hread : checkedStats queue since r.1 with
        | error f => simp [hj, hread, Except.bind, Except.map] at hd
        | ok stats =>
          simp only [hj, hread, Except.bind, Except.map, Except.ok.injEq, Prod.mk.injEq] at hd
          rw [← hd.2]
  | canProcess t =>
    simp only [Postgres.ask, canProcess]
    refine h.perform fun a d hd => ?_
    cases hj : jobRows [t.org, t.queue] c.database with
    | error f => simp [hj, Except.bind] at hd
    | ok r =>
      cases ht : tenantRows [t.org, t.queue] c.database with
      | error f => simp [hj, ht, Except.map, Except.bind] at hd
      | ok tenants =>
        simp only [hj, ht, Except.map, Except.bind, Except.ok.injEq, Prod.mk.injEq] at hd
        rw [← hd.2]
  | record t => exact h.perform_upsertTenant _ _ _
  | setLimit t limit => exact h.perform_upsertTenant _ _ _
  | close => exact ⟨h.writable, h.jobs, h.below, h.valid⟩
  | _ => cases hr

/-- **Every request leaves a table behind**, whose rows come from its answer. -/
theorem Table.answered (rules : Rules) (now : Millis) {r : Request}
    (fresh : ∀ id sub, r = .enqueue id sub → Rows.byId? id rows = none) :
    ∃ rows' identity', Table (ask rules now r c).2 rows' identity' ∧
      Answered rules now r rows (ask rules now r c).1 rows' := by
  have hm := Volatile.mirrored_ofRows h.valid
  have hn := Volatile.unknown_ofRows h.valid fresh
  have broken : ∀ f, ask rules now r c = (.error (failed f), c) → ∃ rows' identity',
      Table (ask rules now r c).2 rows' identity' ∧
        Answered rules now r rows (ask rules now r c).1 rows' := by
    intro f hf
    rw [hf]
    exact ⟨rows, identity, h, .of_brokeDown ⟨_, rfl, rfl⟩⟩
  cases hr : r.isAboutJobs with
  | false =>
    refine ⟨rows, identity, h.ask_other rules now hr, .of_other ?_ ?_⟩
    · rintro worker queues rfl
      cases hr
    · cases r <;> first | rfl | cases hr
  | true =>
    cases ho : c.isOpen with
    | false => exact broken _ (ask_closed ho rules now hr)
    | true =>
      have hc := h.ready ho
      by_cases ht : Plain r.texts
      · by_cases hover : (Volatile.ask rules now r (Volatile.ofRows rows)).1 = .error .overflow
        · -- only a claim can overflow, and the server refuses it
          cases r with
          | dequeue worker queues =>
            obtain ⟨x, hx, hf⟩ := Volatile.full_of_overflow hover
            rcases hm.next_cases h.valid now queues with ⟨hv, -⟩ | ⟨x', y, hv, hy, hj⟩
            · rw [hx] at hv; cases hv
            · obtain rfl := Option.some.inj (hx.symm.trans hv)
              exact broken _ (dequeue_of_full hc ht hy (by rw [hj]; exact hf))
          | _ => exact absurd hover (Volatile.ask_ne_overflow rfl hr (fun _ _ h => by cases h) now)
        · obtain ⟨answer, rows', identity', hc', hm', below⟩ :=
            alike_ask rfl ⟨rows, identity, hc, hm, h.below⟩ h.valid hr ht hn hover
          exact ⟨rows', identity', ⟨hc'.writable, hc'.jobs, below,
            hm'.valid_ofRows (h.valid.step (Volatile.step_ask rfl) hn)⟩, .alike answer hm'⟩
      · obtain ⟨f, hf, answered⟩ := answered_of_not_plain hc rules now hr ht
        rw [hf]
        exact ⟨rows, identity, h, answered⟩

end

end JobQueue.Postgres
