/-
  Bringing the scheme up to date, statement by statement.

  A call looks for the table of versions, reads the highest one, and runs the
  scripts above it, each in a transaction of its own (`Call.advance`).  It may be
  cut off before any statement, and then the transaction that is open is rolled
  back.  In between, while the scheme is complete, anybody may change rows.
  There is one call at a time (`Step`).

  What carries all of this is that a database is always just behind one of the
  scripts (`Database.Regular`), and that a call has those scripts before it that
  the database lacks (`Call.Sound`).
-/
import JobQueue.Proofs.Store.Scheme
import JobQueue.Proofs.Store.Script

namespace JobQueue

/-! ## Calls -/

namespace Upgrade

/-- Which statement a call makes next. -/
inductive Call where
  /-- It takes the lock of the server, which nobody else has. -/
  | locking
  /-- It asks whether there is a table of versions. -/
  | looking
  /-- It asks for the highest version. -/
  | reading
  /-- It read `version` and begins a transaction for the next script above it, if one is left. -/
  | between (version : Int) (left : List Migration)
  /-- It is in the transaction of a script, which sees the database `working` and has the statements
      `texts` left; when there are none it commits. -/
  | inside (version : Int) (m : Migration) (working : Database) (texts : List String)
      (left : List Migration)
  /-- It gives the lock back. -/
  | unlocking

namespace Call

/-- How a call begins. -/
def start : Engine → Call
  | .sqlite => looking
  | .postgres => locking

/-- How a call goes on behind the last script. -/
def finish : Engine → Option Call
  | .sqlite => none
  | .postgres => some unlocking

/-- The next statement of a call, on a database. -/
def advance (e : Engine) (d : Database) : Call → Except EngineFault (Database × Option Call)
  | locking => .ok (d, some looking)
  | looking => .ok (d, some (if d.versions.isSome then reading else between 0 Migration.all))
  | reading =>
    match d.versions with
    | none => .error (e.missingTable versionsTable)
    | some _ => .ok (d, some (between d.version Migration.all))
  | between _ [] => .ok (d, finish e)
  | between v (m :: ms) =>
    .ok (d, some (if v < m.version then inside v m d (Script.statements (m.text e)) ms
      else between v ms))
  | inside v m working (t :: ts) ms =>
    (working.execute e t).map fun working => (d, some (inside v m working ts ms))
  | inside v _ working [] ms => .ok (working, some (between v ms))
  | unlocking => .ok (d, none)

/-- The migration that the next statement commits. -/
def commits? : Call → Option Migration
  | inside _ m _ [] _ => some m
  | _ => none

end Call

/-- A database and the call that is under way on it. -/
structure Site where
  database : Database
  call : Option Call

/-- What requests make of a database, over any connection: also the second half of a report on a
    failed attempt in a file, whose first half only looks. -/
inductive Operates (d : Database) : Engine → Database → Prop where
  | file (rules : Rules) (now : Millis) (r : Request) (isOpen isReadOnly : Bool) :
      Operates d .sqlite (Sqlite.ask rules now r ⟨d, isOpen, isReadOnly⟩).2.database
  | planned (p : Sqlite.PlannedFailure) (isOpen isReadOnly : Bool) :
      Operates d .sqlite (p.carryOut ⟨d, isOpen, isReadOnly⟩).2.database
  | server (rules : Rules) (now : Millis) (r : Request) (isOpen isReadOnly : Bool) :
      Operates d .postgres (Postgres.ask rules now r ⟨d, isOpen, isReadOnly⟩).2.database

/-- What can happen next. -/
inductive Move where
  /-- A call begins. -/
  | call
  /-- The call makes a statement, which may commit a migration. -/
  | advance (committed : Option Migration)
  /-- The call is cut off. -/
  | cut
  /-- A request is answered. -/
  | operate

/-- A move.  A call that is cut off leaves what was committed. -/
inductive Step (e : Engine) : Move → Site → Site → Prop where
  | call {d : Database} : Step e .call ⟨d, none⟩ ⟨d, some (.start e)⟩
  | advance {d d' : Database} {c : Call} {c' : Option Call} (next : c.advance e d = .ok (d', c')) :
      Step e (.advance c.commits?) ⟨d, some c⟩ ⟨d', c'⟩
  | cut {d : Database} {c : Call} : Step e .cut ⟨d, some c⟩ ⟨d, none⟩
  | operate {d d' : Database} {c : Option Call} (complete : d.isBehind = false)
      (operates : Operates d e d') : Step e .operate ⟨d, c⟩ ⟨d', c⟩

/-- Any moves, one after another. -/
inductive Run (e : Engine) : List Move → Site → Site → Prop where
  | nil {s : Site} : Run e [] s s
  | cons {m : Move} {ms : List Move} {s s' s'' : Site} (step : Step e m s s')
      (rest : Run e ms s' s'') : Run e (m :: ms) s s''

/-- The sites to which moves lead from an empty database. -/
def Reached (e : Engine) (s : Site) : Prop := ∃ moves, Run e moves ⟨{}, none⟩ s

namespace Move

/-- The migration that a move commits. -/
def committed? : Move → Option Migration
  | advance m => m
  | _ => none

/-- Is this a statement of a call? -/
def isStatement : Move → Bool
  | advance _ => true
  | _ => false

/-- Does a call that is under way stay so, unless it ends by itself? -/
def spares : Move → Bool
  | advance _ | operate => true
  | call | cut => false

variable {m : Move}

theorem spares_of_isStatement (h : m.isStatement) : m.spares := by
  cases m with
  | advance => rfl
  | call | cut | operate => cases h

theorem ne_operate_of_isStatement (h : m.isStatement) : m ≠ .operate := by
  rintro rfl
  cases h

end Move

/-- The migrations that were committed, in their order. -/
def applied (moves : List Move) : List Migration := moves.filterMap Move.committed?

open Database

variable {e : Engine} {d d' : Database} {c : Call} {c' : Option Call} {s s' : Site}
  {moves : List Move}

theorem Operates.rewritten (h : Operates d e d') : d.Rewritten d' := by
  cases h with
  | file rules now r isOpen isReadOnly => exact Sqlite.rewritten_ask rules now r ⟨d, isOpen, isReadOnly⟩
  | planned p isOpen isReadOnly => exact p.rewritten_carryOut ⟨d, isOpen, isReadOnly⟩
  | server rules now r isOpen isReadOnly =>
    exact Postgres.rewritten_ask rules now r ⟨d, isOpen, isReadOnly⟩

/-! ## What a statement of a call does -/

/-- A call has those scripts before it that the database lacks, and a transaction has made the
    first statements of its script. -/
inductive Call.Sound (e : Engine) (d : Database) : Call → Prop where
  | locking : Sound e d locking
  | looking : Sound e d looking
  | reading (there : d.versions.isSome) : Sound e d reading
  | between {v : Int} {left : List Migration} (due : left.filter (v < ·.version) = d.pending) :
      Sound e d (between v left)
  | inside {v : Int} {m : Migration} {working : Database} {left : List Migration}
      {done rest : List Script.Part} (due : d.pending = m :: left.filter (v < ·.version))
      (parts : m.parts e = done ++ rest)
      (ran : d.runScript e (done.map (·.meaning)) = .ok working) :
      Sound e d (inside v m working (rest.map (·.text)) left)
  | unlocking (nothing : d.pending = []) : Sound e d unlocking

/-- How many statements the transactions of scripts have at most, and two steps around them. -/
def weight (e : Engine) (left : List Migration) : Nat :=
  (left.map fun m => (m.parts e).length + 2).sum + 2

/-- How many steps a call has left at most. -/
def Call.left (e : Engine) : Call → Nat
  | locking => 17
  | looking => 16
  | reading => 15
  | between _ left => weight e left
  | inside _ _ _ texts left => texts.length + 1 + weight e left
  | unlocking => 1

/-- What the database will be when a call ends, if nothing comes in between. -/
def Call.outcome (e : Engine) (d : Database) : Call → Except EngineFault Unit × Database
  | locking | looking | reading => d.migrate e
  | between v left => d.runMigrations e v left
  | inside v _ working texts left =>
    match texts.foldlM (Database.execute e) working with
    | .error f => (.error f, d)
    | .ok d => d.runMigrations e v left
  | unlocking => (.ok (), d)

/-- A statement of a call that succeeds. -/
structure Advanced (e : Engine) (d : Database) (c : Call) (d' : Database) (c' : Option Call) :
    Prop where
  next : c.advance e d = .ok (d', c')
  regular : d'.Regular
  sound : ∀ x ∈ c', x.Sound e d'
  pending : d.pending = c.commits?.toList ++ d'.pending
  ended : c' = none → d'.pending = []
  keeps : d.Keeps d'
  fewer : (c'.elim 0 (·.left e)) < c.left e
  outcome : c.outcome e d = c'.elim (.ok (), d') (·.outcome e d')

/-- A statement that changes nothing. -/
theorem Advanced.still {x : Call} (hd : d.Regular) (quiet : c.commits? = none)
    (next : c.advance e d = .ok (d, some x)) (sound : x.Sound e d) (fewer : x.left e < c.left e)
    (outcome : c.outcome e d = x.outcome e d) : Advanced e d c d (some x) where
  next := next
  regular := hd
  sound := by
    rintro _ ⟨⟩
    exact sound
  pending := by rw [quiet, Option.toList_none, List.nil_append]
  ended := nofun
  keeps := .refl d
  fewer := fewer
  outcome := outcome

theorem mem_all_of_pending {m : Migration} {ms : List Migration} (h : d.pending = m :: ms) :
    m ∈ Migration.all :=
  List.mem_of_mem_filter (h ▸ List.mem_cons_self)

theorem weight_all (e : Engine) : weight e Migration.all = 14 := by cases e <;> rfl

theorem version_of_none (h : d.versions = none) : d.version = 0 := by
  rw [version, h]
  rfl

/-- A call asks for the versions only if there is a table of them. -/
theorem advanced_looking (hd : d.Regular) : ∃ x, Advanced e d .looking d (some x) := by
  cases hv : d.versions with
  | none =>
    have due := hd.filter_version
    rw [version_of_none hv] at due
    refine ⟨.between 0 Migration.all, .still hd rfl ?_ (.between due) ?_ ?_⟩
    · rw [Call.advance, if_neg (by simp [hv])]
    · rw [Call.left, Call.left, weight_all]
      decide
    · rw [Call.outcome, Call.outcome, migrate, version_of_none hv]
  | some vs =>
    have there : d.versions.isSome := by rw [hv]; rfl
    refine ⟨.reading, .still hd rfl ?_ (.reading there) ?_ rfl⟩
    · rw [Call.advance, if_pos there]
    · rw [Call.left, Call.left]
      decide

theorem advanced_reading (hd : d.Regular) (there : d.versions.isSome) :
    Advanced e d .reading d (some (.between d.version Migration.all)) := by
  obtain ⟨vs, hvs⟩ := Option.isSome_iff_exists.mp there
  refine .still hd rfl ?_ (.between hd.filter_version) ?_ rfl
  · rw [Call.advance, hvs]
  · rw [Call.left, Call.left, weight_all]
    decide

/-- Between the scripts a call begins the next one, leaves one out, or comes to its end. -/
theorem advanced_between {v : Int} {left : List Migration} (hd : d.Regular)
    (due : left.filter (v < ·.version) = d.pending) : ∃ c', Advanced e d (.between v left) d c' := by
  cases left with
  | nil =>
    cases e with
    | sqlite =>
      exact ⟨none, rfl, hd, nofun, rfl, fun _ => due.symm, .refl d, Nat.two_pos, rfl⟩
    | postgres =>
      exact ⟨some .unlocking, .still hd rfl rfl (.unlocking due.symm) Nat.one_lt_two rfl⟩
  | cons m ms =>
    have hweight : weight e (m :: ms) = (m.parts e).length + 2 + weight e ms := by
      simp only [weight, List.map_cons, List.sum_cons]
      omega
    by_cases h : v < m.version
    · have hpending : d.pending = m :: ms.filter (v < ·.version) := by
        rw [← due, List.filter_cons_of_pos (by simpa using h)]
      have hm := mem_all_of_pending hpending
      refine ⟨some (.inside v m d (Script.statements (m.text e)) ms), .still hd rfl ?_ ?_ ?_ ?_⟩
      · rw [Call.advance, if_pos h]
      · rw [Migration.statements_text]
        exact .inside hpending (List.nil_append _).symm rfl
      · rw [Call.left, Call.left, hweight, Migration.statements_text, List.length_map]
        omega
      · have hstatements := Migration.run_statements e hm d
        cases hrun : d.runScript e m.script <;>
          simp [Call.outcome, runMigrations, h, hstatements, hrun]
    · refine ⟨some (.between v ms), .still hd rfl ?_ (.between ?_) ?_ ?_⟩
      · rw [Call.advance, if_neg h]
      · rw [← due, List.filter_cons_of_neg (by simpa using h)]
      · rw [Call.left, Call.left, hweight]
        omega
      · rw [Call.outcome, Call.outcome, runMigrations, if_neg h]

/-- In a transaction every statement of the script succeeds, and behind the last one the whole script
    is committed. -/
theorem advanced_inside {v : Int} {m : Migration} {working : Database} {left : List Migration}
    {done rest : List Script.Part} (hd : d.Regular)
    (due : d.pending = m :: left.filter (v < ·.version)) (parts : m.parts e = done ++ rest)
    (ran : d.runScript e (done.map (·.meaning)) = .ok working) :
    ∃ d' c', Advanced e d (.inside v m working (rest.map (·.text)) left) d' c' := by
  have hm := mem_all_of_pending due
  obtain ⟨d', hscript, hregular, hpending, hkeeps⟩ := hd.next due e
  -- The whole script succeeds, so what is left of it does.
  have hrest : (rest.map (·.meaning)).foldlM (change e) working = .ok d' := by
    rw [← Migration.meaning_parts e hm, parts, List.map_append, runScript, List.foldlM_append,
      bind_eq_ok_iff] at hscript
    obtain ⟨w, hw, hscript⟩ := hscript
    rw [runScript, hw] at ran
    cases ran
    exact hscript
  cases rest with
  | nil =>
    cases hrest
    refine ⟨working, some (.between v left), rfl, hregular, ?_, ?_, by rintro ⟨⟩, hkeeps, ?_, rfl⟩
    · rintro _ ⟨⟩
      exact .between hpending.symm
    · rw [due, hpending]
      rfl
    · exact Nat.lt_add_of_pos_left (Nat.succ_pos _)
  | cons p ps =>
    rw [List.map_cons, List.foldlM_cons, bind_eq_ok_iff] at hrest
    obtain ⟨w, hw, -⟩ := hrest
    have hp : p ∈ m.parts e := by rw [parts]; exact List.mem_append_right _ List.mem_cons_self
    have hexecute : working.execute e p.text = .ok w := (execute_part e hm hp working).trans hw
    refine ⟨d, some (.inside v m w (ps.map (·.text)) left), .still hd rfl ?_ ?_ ?_ ?_⟩
    · rw [List.map_cons, Call.advance, hexecute]
      rfl
    · have hparts : m.parts e = (done ++ [p]) ++ ps := by rw [parts, List.append_cons]
      have hran : d.runScript e ((done ++ [p]).map (·.meaning)) = .ok w := by
        rw [List.map_append, runScript, List.foldlM_append, bind_eq_ok_iff]
        exact ⟨working, ran, by rw [List.map_singleton, List.foldlM_cons, hw]; rfl⟩
      exact .inside due hparts hran
    · rw [Call.left, Call.left, List.map_cons, List.length_cons]
      omega
    · rw [Call.outcome, Call.outcome, List.map_cons, List.foldlM_cons, hexecute]
      rfl

/-- **The next statement of a call succeeds**, whichever it is. -/
theorem Call.Sound.advanced (h : c.Sound e d) (hd : d.Regular) : ∃ d' c', Advanced e d c d' c' := by
  cases h with
  | locking =>
    refine ⟨d, some .looking, .still hd rfl rfl .looking ?_ rfl⟩
    rw [Call.left, Call.left]
    decide
  | looking =>
    obtain ⟨x, h⟩ := advanced_looking hd
    exact ⟨d, some x, h⟩
  | reading there => exact ⟨d, _, advanced_reading hd there⟩
  | between due =>
    obtain ⟨c', h⟩ := advanced_between hd due
    exact ⟨d, c', h⟩
  | inside due parts ran => exact advanced_inside hd due parts ran
  | unlocking nothing =>
    exact ⟨d, none, rfl, hd, nofun, rfl, fun _ => nothing, .refl d, Nat.one_pos, rfl⟩

/-! ## Runs -/

/-- A database just behind some script, and a call with the right scripts before it. -/
structure Site.Sound (e : Engine) (s : Site) : Prop where
  regular : s.database.Regular
  call : ∀ c ∈ s.call, c.Sound e s.database

theorem Call.sound_start (e : Engine) (d : Database) : (start e).Sound e d := by
  cases e with
  | sqlite => exact .looking
  | postgres => exact .locking

theorem Site.sound_start (hd : d.Regular) (e : Engine) : Site.Sound e ⟨d, some (.start e)⟩ where
  regular := hd
  call := by
    rintro _ ⟨⟩
    exact Call.sound_start e d

/-- Requests come only when nothing is pending, and then a call is not in a transaction. -/
theorem Call.Sound.rewritten (h : c.Sound e d) (complete : d.pending = []) (hr : d.Rewritten d') :
    c.Sound e d' := by
  cases h with
  | locking => exact .locking
  | looking => exact .looking
  | reading there => exact .reading (by rw [hr.versions]; exact there)
  | between due => exact .between (due.trans hr.pending.symm)
  | inside due =>
    rw [complete] at due
    cases due
  | unlocking nothing => exact .unlocking (hr.pending.trans nothing)

/-- A statement of a call has one result. -/
theorem Call.Sound.advanced_of_next (h : c.Sound e d) (hd : d.Regular)
    (next : c.advance e d = .ok (d', c')) : Advanced e d c d' c' := by
  obtain ⟨d₁, c₁, advanced⟩ := h.advanced hd
  have heq := next.symm.trans advanced.next
  cases heq
  exact advanced

variable {move : Move}

/-- **A move leaves a sound site behind**, and what it commits is no longer pending. -/
theorem Site.Sound.step (h : s.Sound e) (step : Step e move s s') :
    s'.Sound e ∧ s.database.pending = move.committed?.toList ++ s'.database.pending := by
  cases step with
  | call => exact ⟨Site.sound_start h.regular e, rfl⟩
  | @advance d d' c c' next =>
    have advanced := (h.call c rfl).advanced_of_next h.regular next
    exact ⟨⟨advanced.regular, advanced.sound⟩, advanced.pending⟩
  | cut => exact ⟨⟨h.regular, nofun⟩, rfl⟩
  | @operate d d' c complete operates =>
    have hr := operates.rewritten
    have nothing := h.regular.isBehind_iff.mp complete
    exact ⟨⟨h.regular.rewritten hr, fun c hc => (h.call c hc).rewritten nothing hr⟩, hr.pending.symm⟩

/-- **Over any moves, what was committed and what is pending are the same scripts.** -/
theorem Site.Sound.run (h : s.Sound e) (run : Run e moves s s') :
    s'.Sound e ∧ s.database.pending = applied moves ++ s'.database.pending := by
  induction run with
  | nil => exact ⟨h, rfl⟩
  | @cons move moves s s₁ s₂ step rest ih =>
    obtain ⟨sound, hstep⟩ := h.step step
    obtain ⟨sound', hrest⟩ := ih sound
    refine ⟨sound', ?_⟩
    rw [hstep, hrest, ← List.append_assoc]
    cases hmove : move.committed? <;> simp [applied, hmove]

theorem Reached.sound (h : Reached e s) : s.Sound e := by
  obtain ⟨moves, run⟩ := h
  have empty : Site.Sound e ⟨{}, none⟩ := ⟨.empty, nofun⟩
  exact (empty.run run).1

/-- A call that was not cut off has run all scripts when it ends, and every statement of it leaves
    fewer to come. -/
theorem ended_of_run (h : s.Sound e) (run : Run e moves s s') (spares : ∀ m ∈ moves, m.spares)
    (begun : s.call = none → s.database.pending = []) :
    (s'.call = none → s'.database.pending = []) ∧
      moves.countP Move.isStatement + s'.call.elim 0 (·.left e) ≤ s.call.elim 0 (·.left e) := by
  induction run with
  | nil => exact ⟨begun, by simp⟩
  | @cons move moves s s₁ s₂ step rest ih =>
    obtain ⟨hspares, hrest⟩ := List.forall_mem_cons.mp spares
    have sound := (h.step step).1
    cases step with
    | call => cases hspares
    | cut => cases hspares
    | @advance d d' c c' next =>
      have advanced := (h.call c rfl).advanced_of_next h.regular next
      obtain ⟨ended, count⟩ := ih sound hrest advanced.ended
      refine ⟨ended, ?_⟩
      have hfewer := advanced.fewer
      rw [List.countP_cons_of_pos rfl]
      simp only [Option.elim_some] at count ⊢
      omega
    | @operate d d' c complete operates =>
      -- Requests leave both the versions and the call as they are.
      have hpending := operates.rewritten.pending
      obtain ⟨ended, count⟩ := ih sound hrest fun hc => hpending.trans (begun hc)
      exact ⟨ended, by rwa [List.countP_cons_of_neg (by decide)]⟩

/-- A call that nothing comes between comes to its outcome. -/
theorem Call.Sound.finishes {d : Database} {c : Call} (h : c.Sound e d) (hd : d.Regular) :
    ∃ moves d', (∀ m ∈ moves, m.isStatement) ∧ Run e moves ⟨d, some c⟩ ⟨d', none⟩ ∧
      c.outcome e d = (.ok (), d') ∧ d.Keeps d' := by
  obtain ⟨d₁, c₁, advanced⟩ := h.advanced hd
  have step : Step e (.advance c.commits?) ⟨d, some c⟩ ⟨d₁, c₁⟩ := .advance advanced.next
  cases c₁ with
  | none => exact ⟨_, d₁, by simp [Move.isStatement], .cons step .nil, advanced.outcome, advanced.keeps⟩
  | some c₁ =>
    have _fewer : c₁.left e < c.left e := advanced.fewer
    obtain ⟨moves, d', statements, run, outcome, keeps⟩ :=
      (advanced.sound c₁ rfl).finishes advanced.regular
    refine ⟨.advance c.commits? :: moves, d', ?_, .cons step run, advanced.outcome.trans outcome,
      advanced.keeps.trans keeps⟩
    exact List.forall_mem_cons.mpr ⟨rfl, statements⟩
termination_by c.left e

theorem Run.append {moves' : List Move} {s'' : Site} (run : Run e moves s s')
    (run' : Run e moves' s' s'') : Run e (moves ++ moves') s s'' := by
  induction run with
  | nil => exact run'
  | cons step _ ih => exact .cons step (ih run')

/-- A transaction that is not cut off commits what its statements make. -/
theorem run_inside (d : Database) (v : Int) {m : Migration} (hm : m ∈ Migration.all)
    {parts : List Script.Part} (hparts : parts ⊆ m.parts e) {working : Database}
    (ran : (parts.map (·.meaning)).foldlM (change e) working = .ok d') (left : List Migration) :
    ∃ moves, Run e moves ⟨d, some (.inside v m working (parts.map (·.text)) left)⟩
      ⟨d', some (.between v left)⟩ := by
  induction parts generalizing working with
  | nil =>
    cases ran
    exact ⟨_, .cons (.advance rfl) .nil⟩
  | cons p parts ih =>
    obtain ⟨hp, hrest⟩ := List.cons_subset.mp hparts
    rw [List.map_cons, List.foldlM_cons, bind_eq_ok_iff] at ran
    obtain ⟨w, hw, ran⟩ := ran
    obtain ⟨moves, run⟩ := ih hrest ran
    refine ⟨_, .cons (.advance ?_) run⟩
    rw [List.map_cons, Call.advance, execute_part e hm hp, hw]
    rfl

/-- A script above the version that was read is run. -/
theorem run_script {v : Int} {m : Migration} (hm : m ∈ Migration.all) (h : v < m.version)
    (ran : d.runScript e m.script = .ok d') (left : List Migration) :
    ∃ moves, Run e moves ⟨d, some (.between v (m :: left))⟩ ⟨d', some (.between v left)⟩ := by
  rw [← Migration.meaning_parts e hm] at ran
  obtain ⟨moves, run⟩ := run_inside d v hm (List.Subset.refl _) ran left
  refine ⟨_, .cons (.advance ?_) run⟩
  rw [Call.advance, if_pos h, Migration.statements_text]

/-- A statement that commits nothing leaves the database as it is. -/
theorem eq_of_quiet (next : c.advance e d = .ok (d', c')) (quiet : c.commits? = none) : d' = d := by
  cases c with
  | locking | looking | unlocking => cases next; rfl
  | reading =>
    rw [Call.advance] at next
    split at next
    · cases next
    · cases next
      rfl
  | between v left => cases left <;> (cases next; rfl)
  | inside v m working texts left =>
    cases texts with
    | nil => cases quiet
    | cons t ts =>
      obtain ⟨w, -, heq⟩ := map_eq_ok_iff.mp next
      cases heq
      rfl

/-- When nothing is pending, calls change nothing, whether they are cut off or not. -/
theorem eq_of_run (h : s.Sound e) (nothing : s.database.pending = []) (run : Run e moves s s')
    (undisturbed : ∀ m ∈ moves, m ≠ .operate) : s'.database = s.database := by
  induction run with
  | nil => rfl
  | @cons move moves s s₁ s₂ step rest ih =>
    obtain ⟨hmove, hrest⟩ := List.forall_mem_cons.mp undisturbed
    obtain ⟨sound, hpending⟩ := h.step step
    rw [nothing, List.nil_eq, List.append_eq_nil_iff] at hpending
    obtain ⟨hcommitted, hnothing⟩ := hpending
    rw [ih sound hnothing hrest]
    cases step with
    | call => rfl
    | cut => rfl
    | advance next => exact eq_of_quiet next (Option.toList_eq_nil_iff.mp hcommitted)
    | operate => exact absurd rfl hmove

theorem Call.outcome_start (e : Engine) (d : Database) : (start e).outcome e d = d.migrate e := by
  cases e <;> rfl

theorem Call.left_start (e : Engine) : (start e).left e ≤ 17 := by
  cases e <;> decide

/-- A further call changes nothing. -/
theorem migrate_of_complete (hd : d.Regular) (nothing : d.pending = []) (e : Engine) :
    d.migrate e = (.ok (), d) := by
  obtain ⟨moves, d', statements, run, outcome, -⟩ := (Call.sound_start e d).finishes hd
  have same : d' = d := eq_of_run (Site.sound_start hd e) nothing run fun m hm =>
    Move.ne_operate_of_isStatement (statements m hm)
  rw [← Call.outcome_start, outcome, same]

/-- **The scheme comes to its last version, wherever calls are cut off.**  Take a database to which
    calls of the migrator lead from an empty one, each of them cut off at any statement or not, and
    requests in between while the scheme is complete.

    It notes no version, the first or both, and has exactly their tables.  If a call is under way
    its next statement succeeds, and every table keeps its rows.

    A call that is not cut off comes to its end, after 17 steps at most: then both versions are
    noted, and what it committed are exactly the scripts that were pending before, in their order.
    If nothing comes between, it does what `Database.migrate` says, keeps all rows, and a further
    call changes nothing.  Once the scheme is complete calls change nothing at all, whether they are
    cut off or not. -/
theorem migrations_converge {call : Option Call} (reached : Reached e ⟨d, call⟩) :
    (d.versions = none ∧ d.tableNames = [] ∨
      d.versions = some [1] ∧ d.tableNames = [jobsTable, versionsTable] ∨
      d.versions = some [1, 2] ∧ d.tableNames = [jobsTable, tenantsTable, versionsTable]) ∧
    (∀ c ∈ call, ∃ d' c', c.advance e d = .ok (d', c') ∧ d.Keeps d') ∧
    (call = none → ∀ moves s, (∀ m ∈ moves, m.spares) → Run e moves ⟨d, some (.start e)⟩ s →
      moves.countP Move.isStatement ≤ 17 ∧
      (s.call = none → s.database.versions = some [1, 2] ∧ applied moves = d.pending)) ∧
    (call = none → ∃ moves d', (∀ m ∈ moves, m.isStatement) ∧
      Run e moves ⟨d, some (.start e)⟩ ⟨d', none⟩ ∧ d.migrate e = (.ok (), d') ∧ d.Keeps d' ∧
      d'.migrate e = (.ok (), d')) ∧
    (d.versions = some [1, 2] → ∀ moves s, (∀ m ∈ moves, m ≠ .operate) → Run e moves ⟨d, call⟩ s →
      s.database = d) := by
  have sound := reached.sound
  have regular : d.Regular := sound.regular
  have begun : Site.Sound e ⟨d, some (.start e)⟩ := Site.sound_start regular e
  refine ⟨regular.tables, fun c hc => ?_, fun _ moves s spares run => ?_, fun _ => ?_,
    fun complete moves s undisturbed run => ?_⟩
  · obtain ⟨d', c', advanced⟩ := (sound.call c hc).advanced regular
    exact ⟨d', c', advanced.next, advanced.keeps⟩
  · obtain ⟨ended, count⟩ := ended_of_run begun run spares nofun
    obtain ⟨sound', hpending⟩ := begun.run run
    refine ⟨?_, fun hend => ⟨sound'.regular.pending_eq_nil_iff.mp (ended hend), ?_⟩⟩
    · exact (Nat.le_of_add_right_le count).trans (Call.left_start e)
    · rw [ended hend, List.append_nil] at hpending
      exact hpending.symm
  · obtain ⟨moves, d', statements, run, outcome, keeps⟩ := (Call.sound_start e d).finishes regular
    rw [Call.outcome_start] at outcome
    refine ⟨moves, d', statements, run, outcome, keeps, ?_⟩
    have spares : ∀ m ∈ moves, m.spares := fun m hm => Move.spares_of_isStatement (statements m hm)
    exact migrate_of_complete (begun.run run).1.regular ((ended_of_run begun run spares nofun).1 rfl) e
  · exact eq_of_run sound (regular.pending_eq_nil_iff.mpr complete) run undisturbed

/-- A server whose first migrator was cut off between the scripts. -/
theorem migrations_converge_betweenScripts :
    ∃ d, Reached .postgres ⟨d, none⟩ ∧ d.tableNames = [jobsTable, versionsTable] ∧
      ∃ moves d', Run .postgres moves ⟨d, some (.start .postgres)⟩ ⟨d', none⟩ ∧
        applied moves = [Migration.second] ∧ d'.versions = some [1, 2] ∧
        d'.migrate .postgres = (.ok (), d') := by
  obtain ⟨d, hd, -, -, -⟩ := Regular.empty.next rfl .postgres
  obtain ⟨moves, run⟩ := run_script (v := 0) (by decide) (by decide) hd [Migration.second]
  obtain ⟨_, lookups⟩ : ∃ moves, Run .postgres moves ⟨{}, none⟩
      ⟨{}, some (.between 0 Migration.all)⟩ :=
    ⟨_, .cons .call (.cons (.advance rfl) (.cons (.advance rfl) .nil))⟩
  have reached : Reached .postgres ⟨d, none⟩ := ⟨_, (lookups.append run).append (.cons .cut .nil)⟩
  cases hd
  obtain ⟨-, -, ends, alone, -⟩ := migrations_converge reached
  obtain ⟨moves', d', statements, run', -, -, again⟩ := alone rfl
  obtain ⟨versions, committed⟩ := (ends rfl moves' _
    (fun m hm => Move.spares_of_isStatement (statements m hm)) run').2 rfl
  exact ⟨_, reached, rfl, moves', d', run', committed, versions, again⟩

end Upgrade

end JobQueue
