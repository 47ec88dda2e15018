/-
  Reports of workers whose claim was put back.

  A claim that is too old is put back and the job is claimed again, but the
  worker that had it may still be at work, and reports in the end.  A report
  names the job, not the attempt: while a later attempt is under way, the store
  takes the late report as one on that attempt
  (`outdated_reports_are_taken`).  At any other time it is refused, and so is a
  failure that a worker on a file had planned before the job was claimed again.
  An attempt has one outcome, whoever reported it
  (`reports_end_the_attempt_under_way`).

  `Rivals` are workers on a store of any kind who ask anything at any time.
  The jobs that they have claimed are kept as they were handed out, or their
  attempts have ended (`Rivals.Sound`), because attempts are only counted up.
-/
import JobQueue.Proofs.Store.LateReport
import JobQueue.Proofs.Worker.Keeping

namespace JobQueue

/-- Workers `κ` that claim jobs of one store and report on them. -/
structure Rivals (κ : Type) where
  store : AnyStore
  /-- The names that were given to new jobs. -/
  names : List String
  /-- The jobs that were claimed, as they were handed out, the last one first. -/
  claims : List (κ × Job)
  /-- The failures that workers on a file are yet to write down. -/
  plans : κ → Option Sqlite.PlannedFailure
  /-- The accepted reports, the last one first, each with the job as it was before. -/
  reports : List (κ × Job)

namespace Rivals

/-- What can happen next on the store. -/
inductive Move (κ : Type) where
  /-- A worker makes a complete request, whatever it asks. -/
  | ask (k : κ) (now : Millis) (r : Request)
  /-- A worker on a file looks at the job whose failure it reports. -/
  | look (k : κ) (now : Millis) (id message : String)
  /-- It writes the failure down. -/
  | write (k : κ)

/-- The name that a move gives. -/
def Move.name? {κ : Type} : Move κ → Option String
  | .ask _ _ r => r.name?
  | .look .. | .write _ => none

/-- The job that a report is about, as it was before, if the report was accepted. -/
def settled? {α : Type} (a : Except Failure α) (about : Option String) (s : AnyStore) : Option Job :=
  match a with
  | .ok _ => about.bind s.job?
  | .error _ => none

/-- Nobody has asked anything yet. -/
def start {κ : Type} (s : AnyStore) : Rivals κ := ⟨s, [], [], fun _ => none, []⟩

section
variable {κ : Type} (rules : Rules) (g : Rivals κ)

/-- The workers and the store after a request. -/
def told (k : κ) (now : Millis) (r : Request) : Rivals κ :=
  { g with
    store := (AnyStore.ask rules now r g.store).2
    names := r.name?.toList ++ g.names
    claims := (r.claimed? (AnyStore.ask rules now r g.store).1).toList.map (k, ·) ++ g.claims
    reports :=
      (settled? (AnyStore.ask rules now r g.store).1 r.reports? g.store).toList.map (k, ·) ++
        g.reports }

/-- The workers and the file after a failure was written down, or not. -/
def wrote (k : κ) (p : Sqlite.PlannedFailure) (c : Connection) : Rivals κ :=
  { g with
    store := .sqlite (p.carryOut c).2
    reports := (settled? (p.carryOut c).1 (some p.id) g.store).toList.map (k, ·) ++ g.reports }

end

section
variable {κ : Type} [DecidableEq κ]

/-- The workers and the store after a move. -/
def move (rules : Rules) (g : Rivals κ) : Move κ → Rivals κ
  | .ask k now r => g.told rules k now r
  | .look k now id message =>
    match g.store with
    | .sqlite c =>
      let plan := (Sqlite.planFailure rules.retry now id message c).toOption
      { g with plans := Function.update g.plans k plan }
    | _ => g
  | .write k =>
    match g.store, g.plans k with
    | .sqlite c, some p => { g.wrote k p c with plans := Function.update g.plans k none }
    | _, _ => g

/-- The states that a store without jobs can come to, when no name is given twice. -/
inductive Run (rules : Rules) (s : AnyStore) : Rivals κ → Prop where
  | start : Run rules s (.start s)
  | next {g : Rivals κ} (past : Run rules s g) (m : Move κ)
      (fresh : ∀ id ∈ m.name?, id ∉ g.names) : Run rules s (g.move rules m)

end

/-! ## The invariant -/

/-- What every move preserves: a job that was claimed is kept as it was handed out, or its attempt
    has ended; a job that is being processed was claimed so; a plan is about a claim; and an attempt
    that was reported on has ended and was not reported on before. -/
structure Sound {κ : Type} (rules : Rules) (g : Rivals κ) : Prop where
  store : g.store.Sound
  named : ∀ id, g.store.job? id ≠ none → id ∈ g.names
  claimed : ∀ k job, (k, job) ∈ g.claims → job.id ∈ g.names ∧ job.status = .processing ∧
    (g.store.job? job.id = some job ∨ Ended job.attempts (g.store.job? job.id))
  working : ∀ id j, g.store.job? id = some j → j.status = .processing → ∃ k, (k, j) ∈ g.claims
  planned : ∀ k p, g.plans k = some p → ∃ job, Sqlite.Plans rules.retry job p ∧
    ∃ k', (k', job) ∈ g.claims
  reported : ∀ k job, (k, job) ∈ g.reports → (∃ k', (k', job) ∈ g.claims) ∧
    Ended job.attempts (g.store.job? job.id)
  once : (g.reports.map fun q => (q.2.id, q.2.attempts)).Nodup

section
variable {κ : Type} {rules : Rules} {g : Rivals κ} {j old new : Job} {k k' : κ} {r : Request}

theorem sound_start {s : AnyStore} (store : s.Sound) (empty : ∀ id, s.job? id = none) :
    (start s : Rivals κ).Sound rules where
  store := store
  named := by
    intro id h
    exact absurd (empty id) h
  claimed k job h := by cases h
  working := by
    intro id j h
    cases (empty id).symm.trans h
  planned k p h := by cases h
  reported k job h := by cases h
  once := List.nodup_nil

/-- The attempt of a job that is being processed was not reported on yet. -/
theorem Sound.unreported (hs : g.Sound rules) (hj : g.store.job? j.id = some j)
    (hb : j.status = .processing) : ∀ q ∈ g.reports, q.2.id = j.id → q.2.attempts ≠ j.attempts := by
  rintro ⟨k, job⟩ hq hid ha
  obtain ⟨-, hended⟩ := hs.reported k job hq
  rw [show job.id = j.id from hid, hj] at hended
  exact hended.ne hb ha.symm

/-- A claim is not later than what is under way. -/
theorem Sound.claim_le (hs : g.Sound rules) (hnew : (k, new) ∈ g.claims)
    (hj : g.store.job? new.id = some j) (hb : j.status = .processing) : new.attempts ≤ j.attempts := by
  obtain ⟨-, -, hrow | hended⟩ := hs.claimed k new hnew
  · obtain rfl : j = new := Option.some.inj (hj.symm.trans hrow)
    exact Int32.le_refl _
  · rcases hended j hj with hlt | ⟨heq, hidle⟩
    · exact Int32.le_of_lt hlt
    · exact absurd hb hidle

/-- A superseded claim is not what is kept any more. -/
theorem Sound.superseded (hs : g.Sound rules) (hold : (k, old) ∈ g.claims)
    (hnew : (k', new) ∈ g.claims) (hid : new.id = old.id) (hlt : old.attempts < new.attempts) :
    g.store.job? old.id ≠ some old := by
  intro hrow
  obtain ⟨-, hb, -⟩ := hs.claimed k old hold
  have hle : new.attempts ≤ old.attempts := hs.claim_le hnew (by rw [hid]; exact hrow) hb
  exact absurd hlt (Int32.not_lt.2 hle)

/-! ## Requests -/

/-- An accepted report is one on a job that was being processed, and ends its attempt. -/
theorem settled_of_keeps {s s' : AnyStore} (sound : s.Sound) {a : Except Failure r.Answer}
    (keeps : r.Keeps a s.job? s'.job?) (h : settled? a r.reports? s = some j) :
    r.reports? = some j.id ∧ s.job? j.id = some j ∧ j.status = .processing ∧
      Ended j.attempts (s'.job? j.id) := by
  cases a with
  | error f => cases h
  | ok v =>
    obtain ⟨id, hid, hj⟩ := Option.bind_eq_some_iff.1 h
    obtain rfl : j.id = id := sound.id_eq hj
    have hb : j.status = .processing := by
      by_contra hidle
      obtain ⟨f, hf⟩ := keeps.refused j.id hid fun j' hj' => by
        rw [← Option.some.inj (hj.symm.trans hj')]
        exact hidle
      cases hf
    rcases keeps.reported j.id j hid hj hb with ⟨-, hended⟩ | ⟨f, hf, -⟩
    · exact ⟨hid, hj, hb, hended⟩
    · cases hf

/-- **Every request keeps the invariant.** -/
theorem Sound.told (hs : g.Sound rules) (k : κ) (now : Millis)
    (fresh : ∀ id sub, r = .enqueue id sub → id ∉ g.names) : (g.told rules k now r).Sound rules := by
  have unknown : ∀ id sub, r = .enqueue id sub → g.store.job? id = none := by
    intro id sub he
    by_contra hn
    exact fresh id sub he (hs.named id hn)
  obtain ⟨store, keeps⟩ := hs.store.ask rules now unknown
  -- the names that were given are not given again
  have goes : ∀ id ∈ g.names, Goes (g.store.job? id) ((g.told rules k now r).store.job? id) :=
    fun id hid => keeps.goes id fun sub he => fresh id sub he hid
  refine
    { store, named := ?named, claimed := ?claimed, working := ?working, planned := ?planned
      reported := ?reported, once := ?once }
  case named =>
    intro id hid
    by_cases hen : ∃ sub, r = .enqueue id sub
    · obtain ⟨sub, rfl⟩ := hen
      exact List.mem_cons_self
    · refine List.mem_append_right _ (hs.named id fun hn => hid ?_)
      exact (keeps.goes id fun sub he => hen ⟨sub, he⟩).gone hn
  case claimed =>
    intro k' job hmem
    rcases List.mem_append.1 hmem with hmem | hmem
    · obtain ⟨job', hc, he⟩ := List.mem_map.1 hmem
      obtain ⟨rfl, rfl⟩ := Prod.mk.inj he
      obtain ⟨⟨x, hx, -⟩, hy, hb, -⟩ := keeps.claimed job' (Option.mem_toList.1 hc)
      exact ⟨List.mem_append_right _ (hs.named _ (by simp [hx])), hb, .inl hy⟩
    · obtain ⟨hname, hb, hrow⟩ := hs.claimed k' job hmem
      refine ⟨List.mem_append_right _ hname, hb, ?_⟩
      rcases hrow with hrow | hended
      · exact (goes job.id hname).busy job hrow hb
      · exact .inr ((goes job.id hname).ended _ hended)
  case working =>
    intro id j hj hb
    rcases keeps.working id j hj hb with hx | hc
    · obtain ⟨k', hmem⟩ := hs.working id j hx hb
      exact ⟨k', List.mem_append_right _ hmem⟩
    · refine ⟨k, List.mem_append_left _ ?_⟩
      exact List.mem_map_of_mem (Option.mem_toList.2 hc)
  case planned =>
    intro k' p hp
    obtain ⟨job, hplans, k'', hmem⟩ := hs.planned k' p hp
    exact ⟨job, hplans, k'', List.mem_append_right _ hmem⟩
  case reported =>
    intro k' job hmem
    rcases List.mem_append.1 hmem with hmem | hmem
    · obtain ⟨job', hc, he⟩ := List.mem_map.1 hmem
      obtain ⟨rfl, rfl⟩ := Prod.mk.inj he
      obtain ⟨-, hx, hb, hended⟩ := settled_of_keeps hs.store keeps (Option.mem_toList.1 hc)
      obtain ⟨k'', hmem⟩ := hs.working _ _ hx hb
      exact ⟨⟨k'', List.mem_append_right _ hmem⟩, hended⟩
    · obtain ⟨⟨k'', hclaim⟩, hended⟩ := hs.reported k' job hmem
      exact ⟨⟨k'', List.mem_append_right _ hclaim⟩,
        (goes job.id (hs.claimed k'' job hclaim).1).ended _ hended⟩
  case once =>
    show (List.map _ ((settled? _ r.reports? g.store).toList.map (k, ·) ++ g.reports)).Nodup
    cases hc : settled? (AnyStore.ask rules now r g.store).1 r.reports? g.store with
    | none => exact hs.once
    | some j =>
      obtain ⟨-, hx, hb, -⟩ := settled_of_keeps hs.store keeps hc
      refine List.nodup_cons.2 ⟨?_, hs.once⟩
      intro hmem
      obtain ⟨q, hq, he⟩ := List.mem_map.1 hmem
      obtain ⟨hid, ha⟩ := Prod.mk.inj he
      exact hs.unreported hx hb q hq hid ha

/-! ## Failures that were planned -/

/-- Plans may change if they are still about claims. -/
theorem Sound.replan (hs : g.Sound rules) {plans : κ → Option Sqlite.PlannedFailure}
    (h : ∀ k p, plans k = some p → g.plans k = some p ∨
      ∃ job, Sqlite.Plans rules.retry job p ∧ ∃ k', (k', job) ∈ g.claims) :
    Sound rules { g with plans := plans } :=
  { hs with
    planned := by
      intro k p hp
      rcases h k p hp with hp | hp
      · exact hs.planned k p hp
      · exact hp }

theorem Sound.table (hs : g.Sound rules) {c : Connection} (file : g.store = .sqlite c) :
    ∃ rows identity, Sqlite.Table c rows identity := by
  have hstore := hs.store
  rw [file] at hstore
  cases hstore with
  | sqlite table => exact ⟨_, _, table⟩

/-- What is planned at a look is about the claim that is under way. -/
theorem Sound.planFailure (hs : g.Sound rules) {c : Connection} (file : g.store = .sqlite c)
    {now : Millis} {id message : String} {p : Sqlite.PlannedFailure}
    (h : Sqlite.planFailure rules.retry now id message c = .ok p) :
    ∃ job, Sqlite.Plans rules.retry job p ∧ ∃ k', (k', job) ∈ g.claims := by
  obtain ⟨rows, identity, table⟩ := hs.table file
  obtain ⟨job, -, hx, -, -, -, hplans⟩ := Sqlite.planFailure_ok table h
  refine ⟨job, hplans, hs.working id job ?_ hplans.busy⟩
  rw [file, AnyStore.job?_sqlite table]
  exact hx

/-- A failure that was planned for an attempt that has ended is refused. -/
theorem Sound.carryOut_refused (hs : g.Sound rules) {c : Connection} (file : g.store = .sqlite c)
    {p : Sqlite.PlannedFailure} {job : Job} (hplans : Sqlite.Plans rules.retry job p)
    (hclaim : (k, job) ∈ g.claims) (gone : g.store.job? job.id ≠ some job) :
    ∃ f, p.carryOut c = (.error f, c) := by
  obtain ⟨-, -, hrow⟩ := hs.claimed k job hclaim
  obtain ⟨rows, identity, table⟩ := hs.table file
  rw [file, AnyStore.job?_sqlite table, ← hplans.id] at hrow gone
  refine Sqlite.PlannedFailure.carryOut_refused table ?_
  rintro ⟨-, hcount⟩
  exact gone ((hplans.count_ne_zero_iff table hrow).1 hcount)

/-- A failure that is written down while the attempt is under way is a report like any other. -/
theorem told_fail {c : Connection} (file : g.store = .sqlite c) {p : Sqlite.PlannedFailure}
    (same : Sqlite.fail rules.retry p.now p.id p.message c = p.carryOut c) :
    g.told rules k p.now (.fail p.id p.message) = g.wrote k p c := by
  have answer : AnyStore.ask rules p.now (.fail p.id p.message) g.store =
      ((p.carryOut c).1, .sqlite (p.carryOut c).2) := by
    rw [file, ← same]
    rfl
  unfold Rivals.told Rivals.wrote
  rw [answer]
  rfl

theorem Sound.wrote (hs : g.Sound rules) {c : Connection} (file : g.store = .sqlite c)
    {p : Sqlite.PlannedFailure} (planned : g.plans k = some p) : (g.wrote k p c).Sound rules := by
  obtain ⟨job, hplans, k', hclaim⟩ := hs.planned k p planned
  by_cases hx : g.store.job? job.id = some job
  · obtain ⟨rows, identity, table⟩ := hs.table file
    rw [file, AnyStore.job?_sqlite table, ← hplans.id] at hx
    rw [← told_fail file (hplans.fail_eq table hx)]
    exact hs.told k p.now fun id sub he => by cases he
  · obtain ⟨f, hf⟩ := hs.carryOut_refused file hplans hclaim hx
    have same : g.wrote k p c = g := by
      unfold Rivals.wrote
      rw [hf, ← file]
      rfl
    rw [same]
    exact hs

end

/-! ## Runs -/

section
variable {κ : Type} [DecidableEq κ] {rules : Rules} {g : Rivals κ}

theorem Sound.move (hs : g.Sound rules) (m : Move κ)
    (fresh : ∀ id ∈ m.name?, id ∉ g.names) : (g.move rules m).Sound rules := by
  cases m with
  | ask k now r =>
    refine hs.told k now ?_
    rintro id sub rfl
    exact fresh id rfl
  | look k now id message =>
    unfold Rivals.move
    dsimp only
    split
    · rename_i c file
      refine hs.replan fun k' p hp => ?_
      rw [Function.update_apply] at hp
      split at hp
      · right
        cases hplan : Sqlite.planFailure rules.retry now id message c with
        | error f =>
          rw [hplan] at hp
          cases hp
        | ok p' =>
          rw [hplan] at hp
          obtain rfl := Option.some.inj hp
          exact hs.planFailure file hplan
      · exact .inl hp
    · exact hs
  | write k =>
    unfold Rivals.move
    dsimp only
    split
    · rename_i c p file planned
      refine (hs.wrote file planned).replan fun k' p' hp => ?_
      rw [Function.update_apply] at hp
      split at hp
      · cases hp
      · exact .inl hp
    · exact hs

theorem Run.sound {s : AnyStore} (sound : s.Sound) (empty : ∀ id, s.job? id = none)
    (run : Run rules s g) : g.Sound rules := by
  induction run with
  | start => exact sound_start sound empty
  | next past m fresh ih => exact ih.move m fresh

/-- What becomes of a report on a job that was claimed at the attempt `n` and later again.  It is
    refused while the job is not being processed; a refusal changes no job; and while a claim is
    under way, the report counts for that claim, which has no outcome yet, unless the storage
    breaks down. -/
structure Counts (rules : Rules) (g : Rivals κ) (now : Millis) (r : Request) (id : String)
    (n : Int32) : Prop where
  idle : (∀ j, g.store.job? id = some j → j.status ≠ .processing) →
    ∃ f, (AnyStore.ask rules now r g.store).1 = .error f
  refusal : ∀ f, (AnyStore.ask rules now r g.store).1 = .error f →
    (AnyStore.ask rules now r g.store).2.job? = g.store.job?
  underWay : ∀ j, g.store.job? id = some j → j.status = .processing →
    n < j.attempts ∧ (∃ k, (k, j) ∈ g.claims) ∧
    (∀ q ∈ g.reports, q.2.id = j.id → q.2.attempts ≠ j.attempts) ∧
    ((∃ v, (AnyStore.ask rules now r g.store).1 = .ok v) ∧
        Ended j.attempts ((AnyStore.ask rules now r g.store).2.job? id) ∨
      BrokeDown (AnyStore.ask rules now r g.store).1)

omit [DecidableEq κ] in
theorem Sound.counts (hs : g.Sound rules) {k : κ} {old new : Job} (hnew : (k, new) ∈ g.claims)
    (hid : new.id = old.id) (hlt : old.attempts < new.attempts) (now : Millis) {r : Request}
    (hr : r.reports? = some old.id) : g.Counts rules now r old.id old.attempts := by
  have hne : ∀ id sub, r = .enqueue id sub → g.store.job? id = none := by
    rintro id sub rfl
    cases hr
  obtain ⟨-, keeps⟩ := hs.store.ask rules now hne
  refine ⟨keeps.refused old.id hr, keeps.still, ?_⟩
  intro j hj hb
  have hnamed : g.store.job? j.id = some j := by
    rw [hs.store.id_eq hj]
    exact hj
  have hle : new.attempts ≤ j.attempts := hs.claim_le hnew (by rw [hid]; exact hj) hb
  exact ⟨Int32.lt_of_lt_of_le hlt hle, hs.working _ j hj hb, hs.unreported hnamed hb,
    keeps.reported _ j hr hj hb⟩

/-- **A report ends the attempt that is under way, whoever makes it.**  Every attempt has one outcome
    at most, reported while it was under way.  A report on a superseded claim is refused and changes
    nothing while no later claim of the job is under way; otherwise it counts for that one.  A
    failure that was planned for a superseded claim is refused at any time. -/
theorem reports_end_the_attempt_under_way {s : AnyStore} (sound : s.Sound)
    (empty : ∀ id, s.job? id = none) (run : Run rules s g) :
    (∀ q ∈ g.reports, ∃ k, (k, q.2) ∈ g.claims) ∧
    (g.reports.map fun q => (q.2.id, q.2.attempts)).Nodup ∧
    ∀ k k' old new, (k, old) ∈ g.claims → (k', new) ∈ g.claims → new.id = old.id →
      old.attempts < new.attempts →
      (∀ now r, r.reports? = some old.id → g.Counts rules now r old.id old.attempts) ∧
      ∀ c p, g.store = .sqlite c → g.plans k = some p → p.id = old.id → p.attempts = old.attempts →
        ∃ f, p.carryOut c = (.error f, c) := by
  have hs := run.sound sound empty
  refine ⟨?_, hs.once, ?_⟩
  · rintro ⟨k, job⟩ hq
    exact (hs.reported k job hq).1
  · intro k k' old new hold hnew hid hlt
    refine ⟨fun now r hr => hs.counts hnew hid hlt now hr, ?_⟩
    intro c p file planned hp ha
    obtain ⟨job, hplans, k'', hclaim⟩ := hs.planned k p planned
    refine hs.carryOut_refused file hplans hclaim (hs.superseded hclaim hnew ?_ ?_)
    · rw [hid, ← hp, hplans.id]
    · rw [← hplans.attempts, ha]
      exact hlt

/-! ## A worker that was too slow -/

/-- Moves that give no name twice. -/
def Follows (rules : Rules) : Rivals κ → List (Move κ) → Prop
  | _, [] => True
  | g, m :: moves => (∀ id ∈ m.name?, id ∉ g.names) ∧ Follows rules (g.move rules m) moves

/-- They make a run. -/
theorem Run.follow {s : AnyStore} (run : Run rules s g) {moves : List (Move κ)}
    (h : Follows rules g moves) : Run rules s (moves.foldl (move rules) g) := by
  induction moves generalizing g with
  | nil => exact run
  | cons m moves ih => exact ih (run.next m h.1) h.2

end

/-- A job is claimed, and its failure seen; it is put back and claimed again. -/
def tooSlow : List (Move (Fin 2)) :=
  [.ask 1 0 (.enqueue "a" ⟨"q", "t", "o", .empty, {}⟩), .ask 0 1 (.dequeue "v" .any),
    .look 0 2 "a" "broken", .ask 1 3 (.requeueStale 2), .ask 1 4 (.dequeue "w" .any)]

/-- The two claims. -/
def firstClaim : Job := ((⟨"q", "t", "o", .empty, {}⟩ : Submission).toJob "a" 0).taken 1 "v" 1
def secondClaim : Job := firstClaim.requeued.taken 4 "w" 2

/-- The workers after `tooSlow` and further moves. -/
def afterTooSlow (s : AnyStore) (moves : List (Move (Fin 2))) : Rivals (Fin 2) :=
  (tooSlow ++ moves).foldl (move .default) (start s)

theorem run_afterTooSlow (s : AnyStore) {moves : List (Move (Fin 2))}
    (h : ∀ m ∈ moves, m.name? = none) : Run .default s (afterTooSlow s moves) := by
  have rest : ∀ g, Follows .default g moves := by
    induction moves with
    | nil => exact fun _ => trivial
    | cons m moves ih =>
      intro g
      refine ⟨?_, ih (fun m' hm => h m' (List.mem_cons_of_mem m hm)) _⟩
      rw [h m List.mem_cons_self]
      rintro id ⟨⟩
  refine Run.start.follow ⟨?_, ?_, ?_, ?_, ?_, rest _⟩
  · rintro id - ⟨⟩
  all_goals rintro id ⟨⟩

/-- The second claim has been reported on. -/
def afterBoth : Rivals (Fin 2) :=
  afterTooSlow (.sqlite (freshConnection .sqlite)) [.ask 1 5 (.complete "a" none)]

theorem reports_end_the_attempt_under_way_tooSlow :
    afterBoth.reports = [(1, secondClaim)] ∧
    (∃ f, (AnyStore.ask .default 6 (.complete "a" none) afterBoth.store).1 = .error f ∧
      (AnyStore.ask .default 6 (.complete "a" none) afterBoth.store).2.job? =
        afterBoth.store.job?) ∧
    ∃ c p f, afterBoth.store = .sqlite c ∧ afterBoth.plans 0 = some p ∧
      p.carryOut c = (.error f, c) := by
  have sound : (AnyStore.sqlite (freshConnection .sqlite)).Sound :=
    .sqlite (Sqlite.Connection.ready_table ⟨rfl, rfl, rfl⟩)
  have hclaims : afterBoth.claims = [(1, secondClaim), (0, firstClaim)] := by decide +kernel
  have hjob : afterBoth.store.job? "a" = some (secondClaim.finished 5 none) := by decide +kernel
  have hplan : (afterBoth.plans 0).map (fun p => (p.id, p.attempts)) = some ("a", 1) := by
    decide +kernel
  obtain ⟨c, file⟩ : ∃ c, afterBoth.store = .sqlite c := ⟨_, rfl⟩
  obtain ⟨p, planned, hp⟩ := Option.map_eq_some_iff.1 hplan
  obtain ⟨hid, ha⟩ := Prod.mk.inj hp
  obtain ⟨-, -, hsuperseded⟩ := reports_end_the_attempt_under_way sound (fun _ => rfl)
    (show Run .default _ afterBoth from run_afterTooSlow _ (by decide))
  obtain ⟨hcounts, hrefused⟩ := hsuperseded 0 1 firstClaim secondClaim
    (hclaims ▸ by decide) (hclaims ▸ by decide) rfl (by decide)
  obtain ⟨idle, refusal, -⟩ := hcounts 6 (.complete "a" none) rfl
  refine ⟨by decide +kernel, ?_, ?_⟩
  · obtain ⟨f, hf⟩ := idle fun j hj => by
      rw [← Option.some.inj (hjob.symm.trans hj)]
      decide
    exact ⟨f, hf, refusal f hf⟩
  · obtain ⟨f, hf⟩ := hrefused c p file planned hid ha
    exact ⟨c, p, f, file, planned, hf⟩

/-- A worker whose claim was put back ends the later attempt of another one with its report. -/
def TakesLateReports (s : AnyStore) : Prop :=
  Run .default s (afterTooSlow s []) ∧
  (afterTooSlow s []).claims = [(1, secondClaim), (0, firstClaim)] ∧
  firstClaim.attempts < secondClaim.attempts ∧
  (afterTooSlow s []).store.job? "a" = some secondClaim ∧
  (AnyStore.ask .default 5 (.complete "a" none) (afterTooSlow s []).store).1 = .ok () ∧
  (afterTooSlow s [.ask 0 5 (.complete "a" none)]).reports = [(0, secondClaim)] ∧
  (afterTooSlow s [.ask 0 5 (.complete "a" none)]).store.job? "a" =
    some (secondClaim.finished 5 none) ∧
  (AnyStore.ask .default 5 (.fail "a" "broken") (afterTooSlow s []).store).1 = .ok () ∧
  (afterTooSlow s [.ask 0 5 (.fail "a" "broken")]).reports = [(0, secondClaim)] ∧
  (afterTooSlow s [.ask 0 5 (.fail "a" "broken")]).store.job? "a" =
    some (secondClaim.failing .default 5 "broken")

/-- **A late report is not refused**, by a store of any kind. -/
theorem outdated_reports_are_taken :
    TakesLateReports (.volatile .empty) ∧ TakesLateReports (.sqlite (freshConnection .sqlite)) ∧
    TakesLateReports (.postgres (freshConnection .postgres)) := by
  have taken : ∀ s ∈ [AnyStore.volatile .empty, .sqlite (freshConnection .sqlite),
      .postgres (freshConnection .postgres)], TakesLateReports s := by
    intro s hs
    unfold TakesLateReports
    constructor
    · exact run_afterTooSlow s (fun _ => nofun)
    · revert s
      decide +kernel
  exact ⟨taken _ (by simp), taken _ (by simp), taken _ (by simp)⟩

end Rivals

end JobQueue
