/-
  What a store of any kind does for workers.

  A claim is kept as it was handed out until somebody reports on it or takes it
  away; nothing else makes a job one that is being processed; a report on a job
  that is being processed is accepted, unless the storage breaks down, and one
  on any other job is refused; and a refusal leaves the jobs alone.  This is
  `Request.Keeps`, and it holds of every request to every kind of store
  (`AnyStore.Sound.ask`).
-/
import JobQueue.Proofs.Store.ServerRows
import JobQueue.Proofs.Worker.Crew
import JobQueue.Store.Any

namespace JobQueue

/-- The name that a request gives. -/
def Request.name? : Request → Option String
  | .enqueue id _ => some id
  | _ => none

/-- What an answered request makes of the jobs `x` under their names. -/
structure Request.Keeps (r : Request) (a : Except Failure r.Answer) (x y : String → Option Job) : Prop where
  goes : ∀ id, (∀ sub, r ≠ .enqueue id sub) → Goes (x id) (y id)
  spared : ∀ j t, x j.id = some j → j.status = .processing → j.startedAt = some t → r.Spares j →
    y j.id = some j
  claimed : ∀ job, r.claimed? a = some job → (∃ j, x job.id = some j ∧ j.status = .pending) ∧
    y job.id = some job ∧ job.status = .processing ∧ ∃ t, job.startedAt = some t
  working : ∀ id j, y id = some j → j.status = .processing → x id = some j ∨ r.claimed? a = some j
  reported : ∀ id j, r.reports? = some id → x id = some j → j.status = .processing →
    (∃ v, a = .ok v) ∧ Ended j.attempts (y id) ∨ BrokeDown a
  refused : ∀ id, r.reports? = some id → (∀ j, x id = some j → j.status ≠ .processing) →
    ∃ f, a = .error f
  still : ∀ f, a = .error f → y = x

/-! ## The volatile store -/

namespace Volatile

def job? (s : Volatile) (id : String) : Option Job := (s.jobs.get? id).map (·.job)

section
variable {rules : Rules} {now : Millis} {s : Volatile} {r : Request}

/-- Only a claim makes a job one that is being processed. -/
theorem Fate.working {id : String} {a : Except Failure r.Answer} {x : Option Ranked} {y : Ranked}
    (h : Fate rules now id r a x (some y)) (busy : y.job.status = .processing) :
    x = some y ∨ r.claimed? a = some y.job := by
  cases h with
  | same => exact .inl rfl
  | claimed => exact .inr rfl
  | enqueued | completed | retried | failed | requeued => cases busy

/-- A report on a job that is being processed ends its attempt. -/
theorem reported_of_busy {id : String} {x : Ranked} (hid : r.reports? = some id)
    (hx : s.jobs.get? id = some x) (hb : x.job.status = .processing) :
    (∃ v, (ask rules now r s).1 = .ok v) ∧ Ended x.job.attempts ((ask rules now r s).2.job? id) ∨
      BrokeDown (ask rules now r s).1 := by
  have ended : ∀ y : Job, y.attempts = x.job.attempts → y.status ≠ .processing →
      Ended x.job.attempts ((s.update id x y).job? id) := by
    intro y ha hy j hj
    obtain rfl : y = j := by simpa [job?, update, Keyed.get?_put] using hj
    exact .inr ⟨ha.symm, hy⟩
  cases r with
  | complete id' result =>
    cases hid
    cases hp : s.poisoned with
    | true => exact .inr ⟨.error (.internal .poisoned), by simp [ask, complete, hold, hp], rfl⟩
    | false =>
      rw [ask, complete_of_busy hp hx hb]
      exact .inl ⟨⟨(), rfl⟩, ended _ rfl (by simp [Job.finished])⟩
  | fail id' message =>
    cases hid
    cases hp : s.poisoned with
    | true => exact .inr ⟨.error (.internal .poisoned), by simp [ask, fail, hold, hp], rfl⟩
    | false =>
      rw [ask, fail_of_busy hp hx hb]
      exact .inl ⟨⟨(), rfl⟩, ended _ (x.job.failing_attempts _ _ _) (x.job.failing_status _ _ _)⟩
  | _ => cases hid

/-- A report on a job that is not being processed is refused. -/
theorem refused_of_idle {id : String} (hid : r.reports? = some id)
    (idle : ∀ x, s.jobs.get? id = some x → x.job.status ≠ .processing) :
    ∃ f, (ask rules now r s).1 = .error f := by
  cases r with
  | complete id' result =>
    cases hid
    cases hp : s.poisoned with
    | true => exact ⟨.error (.internal .poisoned), by simp [ask, complete, hold, hp]⟩
    | false =>
      cases hx : s.jobs.get? id with
      | none => exact ⟨_, by rw [ask, complete_of_none hp hx]⟩
      | some x => exact ⟨_, by rw [ask, complete_of_idle hp hx (idle x hx)]⟩
  | fail id' message =>
    cases hid
    cases hp : s.poisoned with
    | true => exact ⟨.error (.internal .poisoned), by simp [ask, fail, hold, hp]⟩
    | false =>
      cases hx : s.jobs.get? id with
      | none => exact ⟨_, by rw [ask, fail_of_none hp hx]⟩
      | some x => exact ⟨_, by rw [ask, fail_of_idle hp hx (idle x hx)]⟩
  | _ => cases hid

theorem keeps (hs : s.Valid) (rules : Rules) (now : Millis) {r : Request}
    (hn : ∀ id sub, r = .enqueue id sub → s.jobs.get? id = none) :
    r.Keeps (ask rules now r s).1 s.job? (ask rules now r s).2.job? := by
  have step : Step rules now s r (ask rules now r s).1 (ask rules now r s).2 := step_ask rfl
  have fate := fun id => step.fate hs hn id
  refine
    { goes := fun id hid => (fate id).goes hid
      spared := ?spared, claimed := ?claimed, working := ?working, reported := ?reported
      refused := ?refused, still := ?still }
  case spared =>
    intro j t hj hb ht hr
    obtain ⟨x, hx, rfl⟩ := Option.map_eq_some_iff.1 hj
    have hfate := fate x.job.id
    rw [hx] at hfate
    rw [job?, hfate.spared rfl hb ht hr]
    rfl
  case claimed =>
    intro job hc
    obtain ⟨x, hx, hp, hy, hb, ht⟩ := (fate job.id).claimed_eq hc rfl
    refine ⟨⟨x.job, by rw [job?, hx]; rfl, hp⟩, by rw [job?, hy]; rfl, hb, now, ht⟩
  case working =>
    intro id j hj hb
    obtain ⟨y, hy, rfl⟩ := Option.map_eq_some_iff.1 hj
    have hfate := fate id
    rw [hy] at hfate
    rcases hfate.working hb with hx | hc
    · exact .inl (by rw [job?, hx]; rfl)
    · exact .inr hc
  case reported =>
    intro id j hid hj hb
    obtain ⟨x, hx, rfl⟩ := Option.map_eq_some_iff.1 hj
    exact reported_of_busy hid hx hb
  case refused =>
    intro id hid idle
    exact refused_of_idle hid fun x hx => idle x.job (by rw [job?, hx]; rfl)
  case still =>
    intro f ha
    funext id
    rw [job?, job?, step.jobs_of_error ha]

end

end Volatile

/-! ## Stores with rows -/

section
variable {r : Request} {a a' : Except Failure r.Answer} {x y : String → Option Job}

theorem claimed?_of_wordless (h : wordless a = wordless a') : r.claimed? a = r.claimed? a' := by
  cases r with
  | dequeue worker queues =>
    cases a with
    | ok job =>
      cases a' with
      | ok job' => cases h; rfl
      | error f => cases h
    | error f =>
      cases a' with
      | ok job' => cases h
      | error f' => rfl
  | _ => rfl

/-- Errors go with errors. -/
theorem error_of_wordless {α : Type} {b : Except Failure α} {f : Failure}
    (he : wordless (.error f) = wordless b) : ∃ f', b = .error f' := by
  cases b with
  | ok v => cases he
  | error f' => exact ⟨f', rfl⟩

theorem BrokeDown.of_wordless {α : Type} {a a' : Except Failure α} (h : BrokeDown a)
    (he : wordless a = wordless a') : BrokeDown a' := by
  obtain ⟨f, rfl, hf⟩ := h
  cases a' with
  | ok v => cases he
  | error f' =>
    have hkind : f.kind? = f'.kind? := Except.error.inj he
    exact ⟨f', rfl, by rw [Failure.isBreakdown, ← hkind]; exact hf⟩

/-- The words of an error are nothing to workers. -/
theorem Request.Keeps.of_wordless (h : r.Keeps a x y) (he : wordless a = wordless a') :
    r.Keeps a' x y := by
  have hc := claimed?_of_wordless he
  refine
    { goes := h.goes, spared := h.spared, claimed := fun job hj => h.claimed job (hc.trans hj)
      working := ?working, reported := ?reported, refused := ?refused, still := ?still }
  case working =>
    intro id j hj hb
    rw [← hc]
    exact h.working id j hj hb
  case reported =>
    intro id j hid hj hb
    rcases h.reported id j hid hj hb with ⟨⟨v, rfl⟩, hended⟩ | hbroke
    · refine .inl ⟨?_, hended⟩
      cases a' with
      | ok v' => exact ⟨v', rfl⟩
      | error f => cases he
    · exact .inr (hbroke.of_wordless he)
  case refused =>
    intro id hid idle
    obtain ⟨f, rfl⟩ := h.refused id hid idle
    exact error_of_wordless he
  case still =>
    rintro f rfl
    obtain ⟨f', hf⟩ := error_of_wordless he.symm
    exact h.still f' hf

theorem Answered.keeps {rules : Rules} {now : Millis} {rows rows' : List Ranked}
    (h : Answered rules now r rows a rows') (valid : (Volatile.ofRows rows).Valid)
    (fresh : ∀ id sub, r = .enqueue id sub → Rows.byId? id rows = none) :
    r.Keeps a (Rows.byId? · rows) (Rows.byId? · rows') := by
  cases h with
  | still quiet reports =>
    refine
      { goes := fun id _ => .refl _, spared := fun j t hj _ _ _ => hj, claimed := ?claimed
        working := fun id j hj _ => .inl hj, reported := ?reported
        refused := fun id hid _ => (reports id hid).imp fun f h => h.1
        still := fun _ _ => rfl }
    case claimed =>
      intro job hc
      rw [quiet] at hc
      cases hc
    case reported =>
      intro id j hid hj hb
      obtain ⟨f, hf, hbreaks⟩ := reports id hid
      exact .inr ⟨f, hf, hbreaks j hj hb⟩
  | alike answer state =>
    -- the rows are those of a store in memory, which answers with other words at most
    have hn := Volatile.unknown_ofRows valid fresh
    have hrows : (Rows.byId? · rows) = (Volatile.ofRows rows).job? :=
      funext (Volatile.byId?_ofRows valid)
    have hrows' : (Rows.byId? · rows') =
        (Volatile.ask rules now r (Volatile.ofRows rows)).2.job? :=
      funext (state.byId? (valid.step (Volatile.step_ask rfl) hn))
    rw [hrows, hrows']
    exact (Volatile.keeps valid rules now hn).of_wordless answer

end

/-! ## Stores of any kind -/

namespace AnyStore

/-- The job under a name. -/
def job? : AnyStore → String → Option Job
  | volatile s, id => s.job? id
  | sqlite c, id | postgres c, id =>
    match c.database.jobs with
    | some (.current rows _) => Rows.byId? id rows
    | _ => none

/-- A store that can be used: well formed in memory, or with a table of jobs that can be written
    to. -/
inductive Sound : AnyStore → Prop where
  | volatile {s : Volatile} (valid : s.Valid) : Sound (.volatile s)
  | sqlite {c : Connection} {rows : List Ranked} {identity : Nat}
      (table : Sqlite.Table c rows identity) : Sound (.sqlite c)
  | postgres {c : Connection} {rows : List Ranked} {identity : Nat}
      (table : Postgres.Table c rows identity) : Sound (.postgres c)

theorem job?_sqlite {c : Connection} {rows : List Ranked} {identity : Nat}
    (table : Sqlite.Table c rows identity) : (sqlite c).job? = (Rows.byId? · rows) := by
  funext id
  simp only [job?, table.jobs]

theorem job?_postgres {c : Connection} {rows : List Ranked} {identity : Nat}
    (table : Postgres.Table c rows identity) : (postgres c).job? = (Rows.byId? · rows) := by
  funext id
  simp only [job?, table.jobs]

/-- Jobs are kept under their own names. -/
theorem Sound.id_eq {s : AnyStore} (h : s.Sound) {id : String} {j : Job} (hj : s.job? id = some j) :
    j.id = id := by
  have hrows : ∀ rows, Rows.byId? id rows = some j → j.id = id := by
    intro rows hrow
    obtain ⟨x, hx, rfl⟩ := Option.map_eq_some_iff.1 hrow
    simpa using List.find?_some hx
  cases h with
  | volatile valid =>
    obtain ⟨x, hx, rfl⟩ := Option.map_eq_some_iff.1 hj
    exact valid.id_eq hx
  | @sqlite c rows identity table =>
    rw [job?_sqlite table] at hj
    exact hrows rows hj
  | @postgres c rows identity table =>
    rw [job?_postgres table] at hj
    exact hrows rows hj

/-- **Every request to a store of any kind keeps the claims.** -/
theorem Sound.ask {s : AnyStore} (h : s.Sound) (rules : Rules) (now : Millis) {r : Request}
    (fresh : ∀ id sub, r = .enqueue id sub → s.job? id = none) :
    (ask rules now r s).2.Sound ∧ r.Keeps (ask rules now r s).1 s.job? (ask rules now r s).2.job? := by
  cases h with
  | @volatile s valid =>
    have hn : ∀ id sub, r = .enqueue id sub → s.jobs.get? id = none :=
      fun id sub he => Option.map_eq_none_iff.1 (fresh id sub he)
    exact ⟨.volatile (valid.step (Volatile.step_ask rfl) hn), Volatile.keeps valid rules now hn⟩
  | @sqlite c rows identity table =>
    rw [job?_sqlite table] at fresh ⊢
    obtain ⟨rows', identity', table', answered⟩ := table.answered rules now fresh
    refine ⟨.sqlite table', ?_⟩
    rw [show (AnyStore.ask rules now r (.sqlite c)).2.job? = _ from job?_sqlite table']
    exact answered.keeps table.valid fresh
  | @postgres c rows identity table =>
    rw [job?_postgres table] at fresh ⊢
    obtain ⟨rows', identity', table', answered⟩ := table.answered rules now fresh
    refine ⟨.postgres table', ?_⟩
    rw [show (AnyStore.ask rules now r (.postgres c)).2.job? = _ from job?_postgres table']
    exact answered.keeps table.valid fresh

end AnyStore

end JobQueue
