/-
  Failures that are written down late.

  A database file takes the report on a failed attempt in two statements: a look
  at the job, by which the caller plans what is to become of it, and a change of
  the row if it still is in the attempt that was seen.  Between the two, others
  make requests, and report failures themselves, in any number (`Reporters.Run`).

  The row of a caller with a plan is the one it has seen, or the attempt has ended
  (`Reporters.Sound`), because attempts are only counted up.  So the change is
  either refused, or it is the one that a volatile store would make at once at
  that moment, and the failure of an attempt is written down once
  (`late_failures_are_atomic`).
-/
import JobQueue.Proofs.Store.FileRows

namespace JobQueue

namespace Sqlite

/-! ## Plans -/

/-- What is planned fits the job that was seen. -/
structure Plans (retry : RetryPolicy) (job : Job) (p : PlannedFailure) : Prop where
  id : p.id = job.id
  busy : job.status = .processing
  attempts : p.attempts = job.attempts
  decision : p.decision = retry.decide job.attempts job.maxAttempts

section
variable {c : Connection} {rows : List Ranked} {identity : Nat} {retry : RetryPolicy} {job : Job}
  {p : PlannedFailure}

theorem Plans.apply_eq (hp : Plans retry job p) :
    p.apply job = job.failing retry p.now p.message := by
  unfold PlannedFailure.apply Job.failing
  rw [hp.decision]
  cases retry.decide job.attempts job.maxAttempts <;> rfl

theorem planFailure_ok (ht : Table c rows identity) {now : Millis} {id message : String}
    (h : planFailure retry now id message c = .ok p) :
    ∃ job, fetchExisting id c = .ok job ∧ Rows.byId? id rows = some job ∧ p.id = id ∧
      p.now = now ∧ p.message = message ∧ Plans retry job p := by
  cases ho : c.isOpen with
  | false => simp [planFailure, fetchExisting, fetch, perform_closed _ ho, Except.bind] at h
  | true =>
    have hf := fetchExisting_ready (ht.ready ho) id
    cases hx : Rows.byId? id rows with
    | none =>
      rw [hx] at hf
      simp [planFailure, hf, Except.bind] at h
    | some job =>
      rw [hx] at hf
      have hid : job.id = id := by
        obtain ⟨x, hfind, rfl⟩ := Option.map_eq_some_iff.1 hx
        simpa using List.find?_some hfind
      by_cases hb : job.status = .processing
      · simp only [planFailure, hf, Except.bind, hb, if_true, Except.ok.injEq] at h
        subst h
        exact ⟨job, hf, rfl, rfl, rfl, rfl, hid.symm, hb, rfl, rfl⟩
      · simp [planFailure, hf, Except.bind, hb] at h

/-- The rows that a plan is about: those of the attempt that was seen. -/
def PlannedFailure.concerns (p : PlannedFailure) (j : Job) : Bool :=
  j.id == p.id && j.status == .processing && j.attempts == p.attempts

theorem PlannedFailure.concerns_iff {j : Job} :
    p.concerns j = true ↔ j.id = p.id ∧ j.status = .processing ∧ j.attempts = p.attempts := by
  simp [concerns, and_assoc]

theorem PlannedFailure.carryOut_eq (p : PlannedFailure) (c : Connection) :
    p.carryOut c =
      match change (updateJobs p.concerns p.apply) c with
      | (.error f, c) => (.error f, c)
      | (.ok 0, c) => (.error (.error (.invalidState (.changedMeanwhile p.id))), c)
      | (.ok _, c) => (.ok (), c) := rfl

/-- The change is refused if no row is in the attempt that was seen, or the connection is closed. -/
theorem PlannedFailure.carryOut_refused (ht : Table c rows identity)
    (h : ¬(c.isOpen = true ∧ Rows.count p.concerns rows ≠ 0)) : ∃ f, p.carryOut c = (.error f, c) := by
  cases ho : c.isOpen with
  | false => exact ⟨_, by rw [carryOut_eq, change_closed _ ho]⟩
  | true =>
    have hzero : Rows.count p.concerns rows = 0 := by
      by_contra hne
      exact h ⟨ho, hne⟩
    have hc := change_updateJobs (ht.ready ho) p.concerns p.apply
    rw [hzero, Rows.update_eq_self hzero] at hc
    have hsame : c.database.setJobs rows identity = c.database := by
      rw [Database.setJobs, ← ht.jobs]
    rw [hsame] at hc
    exact ⟨_, by rw [carryOut_eq, hc]; rfl⟩

/-- The row of the attempt that was seen is in the table, or the attempt has ended. -/
theorem Plans.count_ne_zero_iff (hp : Plans retry job p) (ht : Table c rows identity)
    (hrow : Rows.byId? p.id rows = some job ∨ Ended job.attempts (Rows.byId? p.id rows)) :
    Rows.count p.concerns rows ≠ 0 ↔ Rows.byId? p.id rows = some job := by
  have hm := Volatile.mirrored_ofRows ht.valid
  have hby := Volatile.byId?_ofRows ht.valid p.id
  constructor
  · intro hne
    rcases hrow with hrow | hrow
    · exact hrow
    · have hid : ∀ j, p.concerns j = true → j.id = p.id :=
        fun j hj => (PlannedFailure.concerns_iff.1 hj).1
      refine absurd (hm.count_eq_zero ht.valid hid fun x hx => ?_) hne
      · rw [hby, hx] at hrow
        rw [Bool.eq_false_iff]
        intro hj
        obtain ⟨-, hb, ha⟩ := PlannedFailure.concerns_iff.1 hj
        exact hrow.ne hb (ha.trans hp.attempts)
  · intro hx
    rw [hby, Option.map_eq_some_iff] at hx
    obtain ⟨x, hx, rfl⟩ := hx
    exact hm.count_ne_zero hx (PlannedFailure.concerns_iff.2 ⟨hp.id.symm, hp.busy, hp.attempts.symm⟩)

/-- A look now would lead to the same plan as the look at the same job before. -/
theorem Plans.fail_eq (hp : Plans retry job p) (ht : Table c rows identity)
    (hx : Rows.byId? p.id rows = some job) :
    fail retry p.now p.id p.message c = p.carryOut c := by
  cases ho : c.isOpen with
  | false =>
    rw [PlannedFailure.carryOut_eq, change_closed _ ho]
    simp [fail, planFailure, fetchExisting, fetch, perform_closed _ ho, Except.bind]
  | true =>
    have hf := fetchExisting_ready (ht.ready ho) p.id
    rw [hx] at hf
    have hplan : planFailure retry p.now p.id p.message c = .ok p := by
      simp only [planFailure, hf, Except.bind, hp.busy, if_true]
      rw [← hp.decision, ← hp.attempts]
    rw [fail, hplan]

/-- The change of a row that still is in the attempt that was seen is the one that a volatile store
    with the same rows would make. -/
theorem Plans.carryOut (hp : Plans retry job p) (ht : Table c rows identity) (ho : c.isOpen = true)
    (hx : Rows.byId? p.id rows = some job) :
    (Volatile.fail retry p.now p.id p.message (.ofRows rows)).1 = .ok () ∧
    p.carryOut c = (.ok (), { c with
      database := c.database.setJobs
        (Volatile.fail retry p.now p.id p.message (.ofRows rows)).2.stored identity }) := by
  have hne := (hp.count_ne_zero_iff ht (Or.inl hx)).2 hx
  obtain ⟨n, hn⟩ := Nat.exists_eq_succ_of_ne_zero hne
  have hc := change_updateJobs (ht.ready ho) p.concerns p.apply
  rw [hn] at hc
  rw [Volatile.byId?_ofRows ht.valid, Option.map_eq_some_iff] at hx
  obtain ⟨x, hx, rfl⟩ := hx
  rw [Volatile.fail_of_busy rfl hx hp.busy]
  refine ⟨rfl, ?_⟩
  have hrows : Rows.update p.concerns p.apply rows =
      ((Volatile.ofRows rows).update p.id x (x.job.failing retry p.now p.message)).stored := by
    rw [ht.valid.stored_update hx, Volatile.stored_ofRows]
    refine List.map_congr_left fun y hy => ?_
    by_cases he : y.job.id = p.id
    · have hy' : (Volatile.ofRows rows).jobs.get? y.job.id = some y :=
        ht.valid.mem_stored.1 (by rwa [Volatile.stored_ofRows])
      rw [he, hx] at hy'
      obtain rfl := Option.some.inj hy'
      rw [if_pos he, if_pos (PlannedFailure.concerns_iff.2 ⟨he, hp.busy, hp.attempts.symm⟩),
        hp.apply_eq]
    · rw [if_neg he, if_neg fun h => he (PlannedFailure.concerns_iff.1 h).1]
  rw [PlannedFailure.carryOut_eq, hc, hrows]
  rfl

/-- A plan that is carried out leaves a table behind in which the attempt has ended and all others
    are as they were. -/
theorem Plans.table (hp : Plans retry job p) (ht : Table c rows identity) (ho : c.isOpen = true)
    (hx : Rows.byId? p.id rows = some job) :
    ∃ rows', Table (p.carryOut c).2 rows' identity ∧ Ended p.attempts (Rows.byId? p.id rows') ∧
      ∀ id, Goes (Rows.byId? id rows) (Rows.byId? id rows') := by
  have hout := (hp.carryOut ht ho hx).2
  have hby := Volatile.byId?_ofRows ht.valid
  rw [hby, Option.map_eq_some_iff] at hx
  obtain ⟨x, hx, rfl⟩ := hx
  rw [Volatile.fail_of_busy rfl hx hp.busy] at hout
  have hv := ht.valid.update hx ((x.job.failing_id retry p.now p.message).trans hp.id.symm)
  have hm : Volatile.Mirrored _ _ := ⟨rfl, hv.ascending⟩
  have hrow : ∀ id, Rows.byId? id ((Volatile.ofRows rows).update p.id x
      (x.job.failing retry p.now p.message)).stored =
        if p.id = id then some (x.job.failing retry p.now p.message) else Rows.byId? id rows := by
    intro id
    rw [hm.byId? hv, Volatile.update, Keyed.get?_put, hby]
    split <;> rfl
  refine ⟨_, by rw [hout]; exact ⟨ht.writable, rfl, hm.valid_ofRows hv⟩, ?_, fun id => ?_⟩
  · rw [hrow, if_pos rfl]
    rintro _ ⟨⟩
    exact Or.inr ⟨hp.attempts.trans (x.job.failing_attempts ..).symm, x.job.failing_status _ _ _⟩
  · rw [hrow]
    by_cases he : p.id = id
    · subst he
      rw [if_pos rfl, hby, hx]
      exact Volatile.goes_of_ended hp.busy (x.job.failing_attempts ..) (x.job.failing_status _ _ _)
    · rw [if_neg he]
      exact .refl _

end

/-! ## Callers on one file -/

/-- Callers `κ` that report failed attempts to one file. -/
structure Reporters (κ : Type) where
  file : Connection
  /-- The names that were given to new jobs. -/
  names : List String
  /-- The job that a caller has seen and what it plans, between its two statements. -/
  planned : κ → Option (Job × PlannedFailure)
  /-- The attempts whose failure was written down, the last one first. -/
  failed : List (String × Int32)

namespace Reporters

/-- What can happen next on the file. -/
inductive Move (κ : Type) where
  /-- Someone makes a complete request. -/
  | other (c : Volatile.Call)
  /-- A caller looks at the job whose attempt failed, and plans. -/
  | look (k : κ) (now : Millis) (id message : String)
  /-- A caller writes down what it has planned. -/
  | write (k : κ)

/-- The job that a caller sees, and its plan, if the job is being processed. -/
def see (retry : RetryPolicy) (now : Millis) (id message : String) (c : Connection) :
    Option (Job × PlannedFailure) :=
  match fetchExisting id c, planFailure retry now id message c with
  | .ok job, .ok p => some (job, p)
  | _, _ => none

/-- The attempt whose failure is written down when a plan is carried out. -/
def written? (p : PlannedFailure) (c : Connection) : Option (String × Int32) :=
  match (p.carryOut c).1 with
  | .ok () => some (p.id, p.attempts)
  | .error _ => none

/-- The attempt whose failure a complete request writes down. -/
def failure? (rules : Rules) (c : Volatile.Call) (file : Connection) : Option (String × Int32) :=
  match c.request with
  | .fail id message => (see rules.retry c.now id message file).bind fun q => written? q.2 file
  | _ => none

variable {κ : Type} [DecidableEq κ]

/-- The callers and the file after a move. -/
def move (rules : Rules) (g : Reporters κ) : Move κ → Reporters κ
  | .other c =>
    { g with
      file := (ask rules c.now c.request g.file).2
      names := c.name?.toList ++ g.names
      failed := (failure? rules c g.file).toList ++ g.failed }
  | .look k now id message =>
    { g with planned := Function.update g.planned k (see rules.retry now id message g.file) }
  | .write k =>
    match g.planned k with
    | none => g
    | some (_, p) =>
      { g with
        file := (p.carryOut g.file).2
        planned := Function.update g.planned k none
        failed := (written? p g.file).toList ++ g.failed }

/-- The states that a file without jobs can come to, when no name is given twice. -/
inductive Run (rules : Rules) (file : Connection) : Reporters κ → Prop where
  | start : Run rules file ⟨file, [], fun _ => none, []⟩
  | next {g : Reporters κ} (past : Run rules file g) (m : Move κ)
      (fresh : ∀ c id, m = .other c → c.name? = some id → id ∉ g.names) :
      Run rules file (g.move rules m)

/-! ## The invariant -/

/-- What every move preserves: the row of a caller with a plan is the one it has seen or its attempt
    has ended, and the attempts whose failure was written down have ended. -/
structure Sound (rules : Rules) (g : Reporters κ) (rows : List Ranked) (identity : Nat) : Prop where
  table : Table g.file rows identity
  named : ∀ id job, Rows.byId? id rows = some job → id ∈ g.names
  planned : ∀ k job p, g.planned k = some (job, p) → Plans rules.retry job p ∧ p.id ∈ g.names ∧
    (Rows.byId? p.id rows = some job ∨ Ended job.attempts (Rows.byId? p.id rows))
  failed : ∀ q ∈ g.failed, q.1 ∈ g.names ∧ Ended q.2 (Rows.byId? q.1 rows)
  once : g.failed.Nodup

section
variable {rules : Rules} {g : Reporters κ} {rows : List Ranked} {identity : Nat}

omit [DecidableEq κ] in
theorem sound_start {file : Connection} (hf : file.Ready [] identity) :
    Sound rules (⟨file, [], fun _ => none, []⟩ : Reporters κ) [] identity where
  table := Connection.ready_table hf
  named id job h := by cases h
  planned k job p h := by cases h
  failed q h := by cases h
  once := List.nodup_nil

omit [DecidableEq κ] in
theorem Sound.goes (hs : Sound rules g rows identity) {file : Connection} {rows' : List Ranked}
    {identity' : Nat} (ht : Table file rows' identity') {new : List String}
    (hold : ∀ id ∈ g.names, Goes (Rows.byId? id rows) (Rows.byId? id rows'))
    (hnew : ∀ id, id ∉ new → Goes (Rows.byId? id rows) (Rows.byId? id rows')) :
    Sound rules { g with file := file, names := new ++ g.names } rows' identity' where
  table := ht
  named := by
    intro id job hj
    rw [List.mem_append]
    by_cases hid : id ∈ new
    · exact Or.inl hid
    · cases hx : Rows.byId? id rows with
      | none =>
        rw [(hnew id hid).gone hx] at hj
        cases hj
      | some x => exact Or.inr (hs.named id x hx)
  planned := by
    intro k job p hk
    obtain ⟨hp, hid, hrow⟩ := hs.planned k job p hk
    refine ⟨hp, List.mem_append_right _ hid, ?_⟩
    rcases hrow with hrow | hrow
    · exact (hold p.id hid).busy job hrow hp.busy
    · exact Or.inr ((hold p.id hid).ended _ hrow)
  failed := by
    intro q hq
    obtain ⟨hid, he⟩ := hs.failed q hq
    exact ⟨List.mem_append_right _ hid, (hold q.1 hid).ended _ he⟩
  once := hs.once

omit [DecidableEq κ] in
/-- A plan is carried out, and the failure is noted if it was written down. -/
theorem Sound.carryOut (hs : Sound rules g rows identity) {job : Job} {p : PlannedFailure}
    (hp : Plans rules.retry job p) (hid : p.id ∈ g.names)
    (hrow : Rows.byId? p.id rows = some job ∨ Ended job.attempts (Rows.byId? p.id rows)) :
    ∃ rows' identity', Sound rules { g with
      file := (p.carryOut g.file).2
      failed := (written? p g.file).toList ++ g.failed } rows' identity' := by
  by_cases hok : g.file.isOpen = true ∧ Rows.byId? p.id rows = some job
  · obtain ⟨ho, hx⟩ := hok
    obtain ⟨rows', ht, hended, hgoes⟩ := hp.table hs.table ho hx
    have hw : written? p g.file = some (p.id, p.attempts) := by
      rw [written?, (hp.carryOut hs.table ho hx).2]
    have hs' : Sound rules { g with file := (p.carryOut g.file).2, names := [] ++ g.names } _ _ :=
      hs.goes ht (fun id _ => hgoes id) fun id _ => hgoes id
    rw [hw]
    refine ⟨rows', identity, hs'.table, hs'.named, hs'.planned, ?_, ?_⟩
    · intro q hq
      rcases List.mem_cons.1 hq with rfl | hq
      · exact ⟨hid, hended⟩
      · exact hs'.failed q hq
    · refine List.nodup_cons.2 ⟨fun hm => ?_, hs.once⟩
      -- an attempt whose failure was written down is not under way
      obtain ⟨-, he⟩ := hs.failed _ hm
      rw [hx] at he
      exact he.ne hp.busy hp.attempts.symm
  · obtain ⟨f, hf⟩ := PlannedFailure.carryOut_refused (p := p) hs.table fun h =>
      hok ⟨h.1, (hp.count_ne_zero_iff hs.table hrow).1 h.2⟩
    refine ⟨rows, identity, ?_⟩
    rw [written?, hf]
    exact hs

omit [DecidableEq κ] in
theorem Sound.see (hs : Sound rules g rows identity) {now : Millis} {id message : String} {job : Job}
    {p : PlannedFailure} (h : see rules.retry now id message g.file = some (job, p)) :
    Rows.byId? p.id rows = some job ∧ Plans rules.retry job p ∧ p.id ∈ g.names ∧
      planFailure rules.retry now id message g.file = .ok p := by
  unfold Reporters.see at h
  split at h
  · rename_i job' p' hf hp
    obtain ⟨rfl, rfl⟩ := Prod.mk.inj (Option.some.inj h)
    obtain ⟨job'', hf', hx, rfl, -, -, hplans⟩ := planFailure_ok hs.table hp
    obtain rfl := Except.ok.inj (hf.symm.trans hf')
    exact ⟨hx, hplans, hs.named _ _ hx, hp⟩
  · cases h

omit [DecidableEq κ] in
theorem Sound.ask (hs : Sound rules g rows identity) {c : Volatile.Call}
    (fresh : ∀ id, c.name? = some id → id ∉ g.names) :
    ∃ rows' identity', Sound rules { g with
      file := (Sqlite.ask rules c.now c.request g.file).2
      names := c.name?.toList ++ g.names } rows' identity' := by
  have hname : ∀ id sub, c.request = .enqueue id sub → c.name? = some id := by
    intro id sub he
    simp [Volatile.Call.name?, he]
  obtain ⟨rows', identity', ht, hgoes⟩ := hs.table.ask rules c.now (r := c.request) fun id sub he => by
    cases hx : Rows.byId? id rows with
    | none => rfl
    | some job => exact absurd (hs.named id job hx) (fresh id (hname id sub he))
  refine ⟨rows', identity', hs.goes ht (fun id hid => hgoes id fun sub he => ?_) fun id hid =>
    hgoes id fun sub he => ?_⟩
  · exact fresh id (hname id sub he) hid
  · simp [hname id sub he] at hid

omit [DecidableEq κ] in
/-- A report is a look and a change, or is refused at the look. -/
theorem Sound.fail_eq (hs : Sound rules g rows identity) (now : Millis) (id message : String) :
    (∃ job p, Reporters.see rules.retry now id message g.file = some (job, p) ∧ p.id = id ∧
      p.now = now ∧ p.message = message ∧
      Sqlite.fail rules.retry now id message g.file = p.carryOut g.file) ∨
    (Reporters.see rules.retry now id message g.file = none ∧
      ∃ f, Sqlite.fail rules.retry now id message g.file = (.error f, g.file)) := by
  cases hp : planFailure rules.retry now id message g.file with
  | error f =>
    have hsee : Reporters.see rules.retry now id message g.file = none := by
      unfold Reporters.see
      rw [hp]
      split
      · contradiction
      · rfl
    exact Or.inr ⟨hsee, f, by rw [Sqlite.fail, hp]⟩
  | ok p =>
    obtain ⟨job, hf, -, hid, hnow, hmessage, -⟩ := planFailure_ok hs.table hp
    have hsee : Reporters.see rules.retry now id message g.file = some (job, p) := by
      rw [Reporters.see, hf, hp]
    exact Or.inl ⟨job, p, hsee, hid, hnow, hmessage, by rw [Sqlite.fail, hp]⟩

omit [DecidableEq κ] in
theorem Sound.fail (hs : Sound rules g rows identity) (now : Millis) (id message : String) :
    ∃ rows' identity', Sound rules { g with
      file := (Sqlite.fail rules.retry now id message g.file).2
      failed := (failure? rules ⟨now, .fail id message⟩ g.file).toList ++ g.failed }
        rows' identity' := by
  rcases hs.fail_eq now id message with ⟨job, p, hsee, -, -, -, hfail⟩ | ⟨hsee, f, hfail⟩
  · obtain ⟨hx, hplans, hid, -⟩ := hs.see hsee
    simp only [hfail, failure?, hsee]
    exact hs.carryOut hplans hid (Or.inl hx)
  · refine ⟨rows, identity, ?_⟩
    simp only [hfail, failure?, hsee]
    exact hs

/-- **Every move keeps the invariant.** -/
theorem Sound.move (hs : Sound rules g rows identity) (m : Move κ)
    (fresh : ∀ c id, m = .other c → c.name? = some id → id ∉ g.names) :
    ∃ rows' identity', Sound rules (g.move rules m) rows' identity' := by
  cases m with
  | other c =>
    obtain ⟨now, r⟩ := c
    cases r with
    | fail id message => exact hs.fail now id message
    | _ => exact hs.ask fun id => fresh _ id rfl
  | look k now id message =>
    refine ⟨rows, identity, hs.table, hs.named, ?_, hs.failed, hs.once⟩
    intro k' job p hk
    by_cases he : k' = k
    · subst he
      simp only [Reporters.move, Function.update_self] at hk
      obtain ⟨hx, hplans, hid, -⟩ := hs.see hk
      exact ⟨hplans, hid, Or.inl hx⟩
    · simp only [Reporters.move, Function.update_of_ne he] at hk
      exact hs.planned k' job p hk
  | write k =>
    cases hk : g.planned k with
    | none => exact ⟨rows, identity, by simpa only [Reporters.move, hk] using hs⟩
    | some q =>
      obtain ⟨job, p⟩ := q
      obtain ⟨hp, hid, hrow⟩ := hs.planned k job p hk
      obtain ⟨rows', identity', hs'⟩ := hs.carryOut hp hid hrow
      simp only [Reporters.move, hk]
      refine ⟨rows', identity', hs'.table, hs'.named, ?_, hs'.failed, hs'.once⟩
      intro k' job' p' hk'
      by_cases he : k' = k
      · subst he
        simp at hk'
      · simp only [Function.update_of_ne he] at hk'
        exact hs'.planned k' job' p' hk'

theorem Run.sound {file : Connection} (hf : file.Ready [] identity) (run : Run rules file g) :
    ∃ rows identity, Sound rules g rows identity := by
  induction run with
  | start => exact ⟨[], identity, sound_start hf⟩
  | next past m fresh ih =>
    obtain ⟨rows, identity', hs⟩ := ih
    exact hs.move m fresh

/-- **A failure that is written down late is written down at once, or not at all.**  Whatever happened
    on the file before and between the two statements of a caller: if the connection is open and the
    row still is the very one that the caller has seen, its change succeeds, and it changes the table
    as the report changes the volatile store with the same rows at that moment, at the caller's reading
    of the clock.  Otherwise it is refused, and nothing changes; nothing changes either where the look
    is refused.  The failure of an attempt is written down once, however many callers report it. -/
theorem late_failures_are_atomic {file : Connection} (hf : file.Ready [] identity)
    (run : Run rules file g) :
    (∃ rows identity, g.file.database.jobs = some (.current rows identity) ∧
      ∀ k job p, g.planned k = some (job, p) →
        job.id = p.id ∧ job.status = .processing ∧ job.attempts = p.attempts ∧
        ((g.file.isOpen = true ∧ Rows.byId? p.id rows = some job ∧
            (Volatile.fail rules.retry p.now p.id p.message (.ofRows rows)).1 = .ok () ∧
            p.carryOut g.file = (.ok (), { g.file with
              database := g.file.database.setJobs
                (Volatile.fail rules.retry p.now p.id p.message (.ofRows rows)).2.stored identity })) ∨
          (¬(g.file.isOpen = true ∧ Rows.byId? p.id rows = some job) ∧
            ∃ f, p.carryOut g.file = (.error f, g.file)))) ∧
    (∀ now id message,
      (∃ job p, see rules.retry now id message g.file = some (job, p) ∧ p.id = id ∧ p.now = now ∧
        p.message = message ∧ Sqlite.fail rules.retry now id message g.file = p.carryOut g.file) ∨
      (see rules.retry now id message g.file = none ∧
        ∃ f, Sqlite.fail rules.retry now id message g.file = (.error f, g.file))) ∧
    g.failed.Nodup := by
  obtain ⟨rows, identity, hs⟩ := run.sound hf
  refine ⟨⟨rows, identity, hs.table.jobs, fun k job p hk => ?_⟩, hs.fail_eq, hs.once⟩
  obtain ⟨hp, -, hrow⟩ := hs.planned k job p hk
  refine ⟨hp.id.symm, hp.busy, hp.attempts.symm, ?_⟩
  by_cases hok : g.file.isOpen = true ∧ Rows.byId? p.id rows = some job
  · obtain ⟨ho, hx⟩ := hok
    exact Or.inl ⟨ho, hx, hp.carryOut hs.table ho hx⟩
  · refine Or.inr ⟨hok, PlannedFailure.carryOut_refused hs.table fun h => hok ⟨h.1, ?_⟩⟩
    exact (hp.count_ne_zero_iff hs.table hrow).1 h.2

end

/-! ## Lists of moves -/

def Move.name? : Move κ → Option String
  | .other c => c.name?
  | .look .. | .write _ => none

def after (rules : Rules) (file : Connection) (moves : List (Move κ)) : Reporters κ :=
  moves.foldl (move rules) ⟨file, [], fun _ => none, []⟩

theorem after_append (rules : Rules) (file : Connection) (moves : List (Move κ)) (m : Move κ) :
    after rules file (moves ++ [m]) = (after rules file moves).move rules m := by
  simp [after]

theorem names_move (rules : Rules) (g : Reporters κ) (m : Move κ) :
    (g.move rules m).names = m.name?.toList ++ g.names := by
  cases m with
  | other c => rfl
  | look => rfl
  | write k =>
    unfold Reporters.move
    dsimp only
    split <;> rfl

theorem names_after (rules : Rules) (file : Connection) (moves : List (Move κ)) :
    (after rules file moves).names = (moves.filterMap Move.name?).reverse := by
  induction moves using List.reverseRecOn with
  | nil => rfl
  | append_singleton moves m ih =>
    rw [after_append, names_move, ih, List.filterMap_append, List.reverse_append]
    cases h : m.name? <;> simp [h]

/-- Moves that give no name twice make a run. -/
theorem run_after {rules : Rules} {file : Connection} (moves : List (Move κ))
    (h : (moves.filterMap Move.name?).Nodup) : Run rules file (after rules file moves) := by
  induction moves using List.reverseRecOn with
  | nil => exact .start
  | append_singleton moves m ih =>
    rw [List.filterMap_append, List.nodup_append] at h
    rw [after_append]
    refine .next (ih h.1) m ?_
    rintro c id rfl hc hid
    rw [names_after, List.mem_reverse] at hid
    exact h.2.2 id hid id (by simp [Move.name?, hc]) rfl

/-- A job is claimed and seen by a caller; it is put back, claimed again and seen by two others. -/
def overtaken : List (Move (Fin 3)) :=
  [.other ⟨0, .enqueue "a" ⟨"q", "t", "o", .empty, {}⟩⟩, .other ⟨1, .dequeue "v" .any⟩,
    .look 0 2 "a" "too slow", .other ⟨3, .requeueStale 2⟩, .other ⟨4, .dequeue "w" .any⟩,
    .look 1 5 "a" "broken", .look 2 5 "a" "broken"]

/-- The callers of `overtaken`, and after one of the two has written its plan down. -/
def beforeWrite : Reporters (Fin 3) := after .default (freshConnection .sqlite) overtaken
def afterWrite : Reporters (Fin 3) := after .default (freshConnection .sqlite) (overtaken ++ [.write 1])

theorem late_failures_are_atomic_overtaken :
    (∃ job p f, beforeWrite.planned 0 = some (job, p) ∧ job.attempts = 1 ∧
      p.carryOut beforeWrite.file = (.error f, beforeWrite.file)) ∧
    (∃ job p, beforeWrite.planned 1 = some (job, p) ∧ job.attempts = 2 ∧
      (p.carryOut beforeWrite.file).1 = .ok ()) ∧
    (∃ job p f, afterWrite.planned 2 = some (job, p) ∧ job.attempts = 2 ∧
      p.carryOut afterWrite.file = (.error f, afterWrite.file)) ∧
    afterWrite.failed = [("a", 2)] ∧ afterWrite.failed.Nodup := by
  have hf : (freshConnection .sqlite).Ready [] 1 := ⟨rfl, rfl, rfl⟩
  obtain ⟨⟨_, _, -, hb⟩, -, -⟩ := late_failures_are_atomic hf (run_after overtaken (by decide))
  obtain ⟨⟨_, _, -, ha⟩, -, hn⟩ :=
    late_failures_are_atomic hf (run_after (overtaken ++ [.write 1]) (by decide))
  have h₀ : (beforeWrite.planned 0).map (fun q => (q.1.attempts, (q.2.carryOut beforeWrite.file).1.isOk)) =
      some (1, false) := by decide +kernel
  have h₁ : (beforeWrite.planned 1).map (fun q => (q.1.attempts, (q.2.carryOut beforeWrite.file).1)) =
      some (2, .ok ()) := by decide +kernel
  have h₂ : (afterWrite.planned 2).map (fun q => (q.1.attempts, (q.2.carryOut afterWrite.file).1.isOk)) =
      some (2, false) := by decide +kernel
  rw [Option.map_eq_some_iff] at h₀ h₁ h₂
  obtain ⟨⟨job₀, p₀⟩, hp₀, he₀⟩ := h₀
  obtain ⟨⟨job₁, p₁⟩, hp₁, he₁⟩ := h₁
  obtain ⟨⟨job₂, p₂⟩, hp₂, he₂⟩ := h₂
  obtain ⟨ha₀, ho₀⟩ := Prod.mk.inj he₀
  obtain ⟨ha₁, ho₁⟩ := Prod.mk.inj he₁
  obtain ⟨ha₂, ho₂⟩ := Prod.mk.inj he₂
  refine ⟨?_, ⟨job₁, p₁, hp₁, ha₁, ho₁⟩, ?_, by decide +kernel, hn⟩
  · rcases (hb 0 job₀ p₀ hp₀).2.2.2 with ⟨-, -, -, hok⟩ | ⟨-, f, hf⟩
    · rw [show p₀.carryOut beforeWrite.file = _ from hok] at ho₀
      cases ho₀
    · exact ⟨job₀, p₀, f, hp₀, ha₀, hf⟩
  · rcases (ha 2 job₂ p₂ hp₂).2.2.2 with ⟨-, -, -, hok⟩ | ⟨-, f, hf⟩
    · rw [show p₂.carryOut afterWrite.file = _ from hok] at ho₂
      cases ho₂
    · exact ⟨job₂, p₂, f, hp₂, ha₂, hf⟩

end Reporters

end Sqlite

end JobQueue
