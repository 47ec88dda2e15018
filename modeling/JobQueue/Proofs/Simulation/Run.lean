/-
  The pool of a scenario.

  What a scenario does to its pool is what can happen to the pool of a `Life`,
  and its tasks that are worker loops are the loops of the pool that are alive
  (`Staffed`).  So a scenario that finds its pool stopped runs no loop
  (`no_loop_when_stopped`).
-/
import JobQueue.Proofs.Simulation.Turn

namespace JobQueue

/-! ## Pools -/

namespace Pool

variable {setup : PoolSetup} {p : Pool}

/-- The pool is that of a life, in which every call of stop has told its loops. -/
def Lives (setup : PoolSetup) (p : Pool) : Prop :=
  ∃ l, Life.Run setup l ∧ l.pool = p ∧ ∀ c ∈ l.stops, c.stage ≠ .signalling

theorem lives_new : Lives setup {} := ⟨{}, .new, rfl, by simp⟩

theorem Lives.start (h : p.Lives setup) :
    (p.start setup.pollInterval setup.workerCount).2.Lives setup := by
  obtain ⟨l, run, rfl, told⟩ := h
  have hl : (l.start setup).2.pool = (l.pool.start setup.pollInterval setup.workerCount).2 ∧
      (l.start setup).2.stops = l.stops := by
    unfold Life.start
    rcases l.pool.start setup.pollInterval setup.workerCount with ⟨_ | _, _⟩ <;> exact ⟨rfl, rfl⟩
  exact ⟨(l.start setup).2, run.next .start, hl.1, hl.2 ▸ told⟩

/-- A call of stop tells its loops at once. -/
theorem Lives.stop (h : p.Lives setup) : p.stop.2.Lives setup := by
  obtain ⟨l, run, rfl, told⟩ := h
  by_cases hr : l.pool.status = .running
  · have hstop : (l.move setup .stop).pool = l.pool.stop.2 ∧
        (l.move setup .stop).stops = l.stops ++ [⟨l.last, .signalling⟩] := by
      simp [Life.move, Life.stop, stop_of_running hr]
    have hcall : (l.move setup .stop).stops[l.stops.length]? = some ⟨l.last, .signalling⟩ := by
      simp [hstop.2]
    have hstops : ((l.move setup .stop).advance l.stops.length .waiting).stops =
        l.stops ++ [⟨l.last, .waiting⟩] := by
      simp [Life.advance, hstop.2, List.modify_eq_set_getElem?]
    refine ⟨_, (run.next .stop).next (.signal l.stops.length), ?_, fun c hc => ?_⟩
    · show ((l.move setup .stop).signal l.stops.length).pool = _
      rw [Life.signal, hcall]
      exact hstop.1
    · change c ∈ ((l.move setup .stop).signal l.stops.length).stops at hc
      rw [Life.signal, hcall] at hc
      change c ∈ ((l.move setup .stop).advance l.stops.length .waiting).stops at hc
      rw [hstops] at hc
      rcases List.mem_append.1 hc with hc | hc
      · exact told c hc
      · rw [List.mem_singleton.1 hc]
        exact Stage.noConfusion
  · rw [stop_of_not hr]
    exact ⟨l, run, rfl, told⟩

theorem Lives.loopEnds (h : p.Lives setup) (n : Nat) : (p.loopEnds n).Lives setup := by
  obtain ⟨l, run, rfl, told⟩ := h
  exact ⟨l.move setup (.ends n), run.next (.ends n), rfl, told⟩

theorem Lives.settle (h : p.Lives setup) : p.settle.Lives setup := by
  obtain ⟨l, run, rfl, told⟩ := h
  have hall : l.stops.all (fun c => c.stage ≠ .signalling) = true := by
    simpa using told
  refine ⟨l.move setup .settle, run.next .settle, ?_, ?_⟩ <;>
    simp only [Life.move, Life.settle, if_pos hall]
  exact told

/-- No loop of a stopped pool is alive. -/
theorem Lives.alive_of_stopped (h : p.Lives setup) (stopped : p.status = .stopped) : p.alive = [] := by
  obtain ⟨l, run, rfl, -⟩ := h
  exact (run.tidy.stopped stopped).1

end Pool

namespace Simulation.World

variable {σ : Type} {s : Setup σ} {w w' : World σ} {id n : Nat}

/-! ## The invariant -/

/-- The pool is that of a life, and the loops that are alive are the tasks that are loops, and those
    that are yet to be spawned. -/
structure Staffed (s : Setup σ) (rest : List Nat) (w : World σ) : Prop where
  lives : w.pool.Lives s.pool
  orderly : w.Orderly
  alive : ∀ n, n ∈ w.pool.alive ↔ n ∈ rest ∨ ∃ id, w.loop? id = some n
  alone : ∀ id id' n, w.loop? id = some n → w.loop? id' = some n → id = id'
  new : ∀ id n, n ∈ rest → w.loop? id ≠ some n
  nodup : rest.Nodup

theorem staffed_new {store : σ} {ids : IdSource} {clock : Millis} :
    Staffed s [] { store := store, ids := ids, clock := clock } where
  lives := Pool.lives_new
  orderly := ⟨fun id t h => (by cases h), fun id t h => (by cases h)⟩
  alive n := by simp [loop?]
  alone id id' n h := by cases h
  new id n h := by cases h
  nodup := .nil

variable {rest : List Nat}

/-- No loop runs as a task once the pool is stopped. -/
theorem Staffed.no_loop_of_stopped (h : Staffed s rest w) (stopped : w.pool.status = .stopped)
    (id : Nat) : w.loop? id = none := by
  cases hl : w.loop? id with
  | none => rfl
  | some n =>
    have := (h.alive n).2 (.inr ⟨id, hl⟩)
    rw [h.lives.alive_of_stopped stopped] at this
    cases this

theorem Staffed.keeps (h : Staffed s rest w) (keeps : Keeps w w') : Staffed s rest w' where
  lives := keeps.pool ▸ h.lives
  orderly := keeps.orderly
  alive n := by simpa [keeps.pool, keeps.loop] using h.alive n
  alone id id' n := by simpa [keeps.loop] using h.alone id id' n
  new id n := by simpa [keeps.loop] using h.new id n
  nodup := h.nodup

theorem Staffed.of_board (h : Staffed s rest w) (board : w'.board = w.board) : Staffed s rest w' :=
  h.keeps (keeps_of_board h.orderly board)

/-- Something happens to the pool that is nothing to its loops. -/
theorem Staffed.pool (h : Staffed s rest w) {p : Pool} (alive : p.alive = w.pool.alive)
    (lives : p.Lives s.pool) : Staffed s rest { w with pool := p } :=
  { h with
    lives := lives
    orderly := ⟨h.orderly.below, h.orderly.late⟩
    alive := fun n => by rw [alive]; exact h.alive n }

theorem Staffed.spawn {l : Loop} (h : Staffed s (l.number :: rest) w) :
    Staffed s rest (w.spawn (.loop l none)) := by
  obtain ⟨hnot, hnodup⟩ := List.nodup_cons.1 h.nodup
  have hloop : ∀ id, (w.spawn (.loop l none)).loop? id =
      if id = w.nextTask then some l.number else w.loop? id := loop?_spawn w _
  have hold := h.orderly.loop?_next
  refine
    { lives := h.lives, orderly := h.orderly.spawn trivial, alive := ?alive, alone := ?alone
      new := ?new, nodup := hnodup }
  case alive =>
    intro n
    show n ∈ w.pool.alive ↔ _
    rw [h.alive, List.mem_cons]
    constructor
    · rintro ((rfl | hn) | ⟨id, hid⟩)
      · exact .inr ⟨w.nextTask, by rw [hloop, if_pos rfl]⟩
      · exact .inl hn
      · refine .inr ⟨id, ?_⟩
        rw [hloop, if_neg, hid]
        rintro rfl
        rw [hold] at hid
        cases hid
    · rintro (hn | ⟨id, hid⟩)
      · exact .inl (.inr hn)
      · rw [hloop] at hid
        split at hid
        · exact .inl (.inl (Option.some.inj hid).symm)
        · exact .inr ⟨id, hid⟩
  case alone =>
    intro id id' n hn hn'
    rw [hloop] at hn hn'
    split at hn <;> split at hn'
    · rename_i hi hi'
      exact hi.trans hi'.symm
    · exact absurd (Option.some.inj hn ▸ hn') (h.new id' l.number List.mem_cons_self)
    · exact absurd (Option.some.inj hn' ▸ hn) (h.new id l.number List.mem_cons_self)
    · exact h.alone id id' n hn hn'
  case new =>
    intro id n hn hl
    rw [hloop] at hl
    split at hl
    · exact hnot (Option.some.inj hl ▸ hn)
    · exact h.new id n (List.mem_cons_of_mem _ hn) hl

theorem Staffed.loopEnds (h : Staffed s [] w) (here : w.loop? id = some n) :
    Staffed s [] (w.loopEnds id n) := by
  obtain ⟨tasks, next, pool⟩ : (w.loopEnds id n).tasks = w.tasks.erase id ∧
      (w.loopEnds id n).nextTask = w.nextTask ∧ (w.loopEnds id n).pool = w.pool.loopEnds n := by
    simpa [World.board] using board_loopEnds w id n
  have hloop := loop?_erase tasks
  refine
    { lives := pool ▸ h.lives.loopEnds n, orderly := h.orderly.erase tasks next, alive := ?alive
      alone := ?alone, new := fun _ _ h => (by cases h), nodup := .nil }
  case alive =>
    intro m
    have hm := h.alive m
    rw [pool]
    simp only [Pool.loopEnds, List.mem_filter, hm, List.not_mem_nil, false_or, hloop]
    constructor
    · rintro ⟨⟨id', hid⟩, hne⟩
      refine ⟨id', ?_⟩
      rw [if_neg, hid]
      rintro rfl
      rw [here] at hid
      simp [Option.some.inj hid] at hne
    · rintro ⟨id', hid⟩
      split at hid
      · cases hid
      · refine ⟨⟨id', hid⟩, decide_eq_true ?_⟩
        rintro rfl
        exact absurd (h.alone id' id m hid here) ‹_›
  case alone =>
    intro id₁ id₂ m h₁ h₂
    rw [hloop] at h₁ h₂
    split at h₁
    · cases h₁
    · split at h₂
      · cases h₂
      · exact h.alone id₁ id₂ m h₁ h₂

/-! ## Turns -/

theorem LoopTurned.staffed {l : Loop} {phase : Option Phase} (turned : LoopTurned s id l w phase w')
    (h : Staffed s [] w) (here : w.loop? id = some l.number) : Staffed s [] w' := by
  have hends : ∀ {w₁ : World σ}, Keeps w w₁ → Staffed s [] (w₁.loopEnds id l.number) :=
    fun keeps => (h.keeps keeps).loopEnds ((keeps.loop id).trans here)
  cases turned with
  | goesOn keeps => exact h.keeps keeps
  | told between stopped => exact hends (between.keeps h.orderly)
  | broke between broken =>
    exact hends ((between.keeps h.orderly).next fun h => (cycleSteps_cases h broken).1)
  | brokeLate at_ broken => exact hends (cycleSteps_cases h.orderly broken).1

theorem Staffed.turn (h : Staffed s [] w) (id : Nat) (wait : Wait) :
    Staffed s [] (w.turn s id wait).1 := by
  generalize hw : (w.turn s id wait).1 = w'
  cases hw ▸ turned (s := s) h.orderly id wait with
  | loop here turned =>
    refine turned.staffed h ?_
    rw [loop?, here]
    rfl
  | settled keeps => exact (h.pool (Pool.alive_settle w.pool) h.lives.settle).keeps keeps
  | other keeps => exact h.keeps keeps

/-! ## Scenarios -/

theorem keeps_scenarioTurn (h : w.Orderly) (wait : Wait) : Keeps w (w.scenarioTurn s wait).2 := by
  unfold scenarioTurn
  dsimp only
  cases wait with
  | «until» tick =>
    dsimp only
    split
    · exact keeps_of_board h rfl
    · split
      · exact keeps_of_board h rfl
      · exact keeps_of_board h (board_setAlarm ..)
  | drained timeout giveUp =>
    dsimp only
    split
    · exact keeps_of_board h rfl
    · split
      · exact keeps_of_board h rfl
      · split
        · exact keeps_of_board h rfl
        · split
          · exact keeps_of_board h (board_setAlarm ..)
          · split
            · exact keeps_of_board h rfl
            · exact keeps_of_board h (board_setAlarm ..)
  | cycle worker queues phase =>
    have hsteps := keeps_someCycleSteps (s := s) .scenario worker queues h 5 phase
    change Keeps w (w.cycleSteps s .scenario worker queues phase).2 at hsteps
    dsimp only
    generalize w.cycleSteps s .scenario worker queues phase = r at hsteps ⊢
    obtain ⟨p, w₁⟩ := r
    refine hsteps.next fun h => ?_
    dsimp only
    split
    · exact keeps_of_board h rfl
    · split <;> exact keeps_of_board h rfl

theorem board_roundEnds? {left : Nat} (h : w.roundEnds? left = some w') : w'.board = w.board := by
  unfold roundEnds? at h
  split at h
  · obtain rfl := Option.some.inj h
    exact board_wakeSpent w
  · obtain ⟨tick, -, rfl⟩ := Option.map_eq_some_iff.1 h
    exact board_jump w tick

theorem Staffed.settle (h : Staffed s [] w) (n left : Nat) (wait : Wait) :
    Staffed s [] (World.settle s n left w wait).2 := by
  induction n generalizing left w wait with
  | zero => exact h
  | succ n ih =>
    unfold World.settle
    split
    · rename_i id ready _
      have hready : Staffed s [] { w with ready := ready } := h.of_board rfl
      exact ih (hready.turn id wait) _ _
    · split
      · exact h
      · rename_i w₁ hround
        have h₁ := h.of_board (board_roundEnds? hround)
        split
        · have h₂ : Staffed s [] { w₁ with allowed := allowance } := h₁.of_board rfl
          have hturn := h₂.keeps (keeps_scenarioTurn (s := s) h₂.orderly wait)
          split
          · rename_i hs
            rwa [hs] at hturn
          · rename_i hs
            rw [hs] at hturn
            exact ih hturn _ _
        · exact ih h₁ _ _

theorem Staffed.waitFor (h : Staffed s [] w) (wait : Wait) : Staffed s [] (w.waitFor s wait).2 := by
  have hturn := h.keeps (keeps_scenarioTurn (s := s) h.orderly wait)
  unfold World.waitFor
  split
  · rename_i hs
    rwa [hs] at hturn
  · rename_i hs
    rw [hs] at hturn
    exact hturn.settle _ _ _

/-- The loops of a start are spawned one after the other. -/
theorem Staffed.spawned {f : World σ → Nat → World σ}
    (hf : ∀ w n, ∃ l : Loop, l.number = n ∧ f w n = w.spawn (.loop l none)) (h : Staffed s rest w) :
    Staffed s [] (rest.foldl f w) := by
  induction rest generalizing w with
  | nil => exact h
  | cons n rest ih =>
    obtain ⟨l, rfl, hl⟩ := hf w n
    exact ih (hl ▸ h.spawn)

/-- A stopped pool has no loops, so those of a start are new. -/
theorem Staffed.startPool (h : Staffed s [] w) (queues : QueueSet) :
    Staffed s [] (w.startPool s queues).2 := by
  unfold World.startPool
  by_cases hs : w.pool.status = .stopped ∧ s.pool.pollInterval ≠ .zero
  · have halive := h.lives.alive_of_stopped hs.1
    have hnone := h.no_loop_of_stopped hs.1
    have hlives := h.lives.start
    rw [Pool.start_of_stopped hs.1 hs.2] at hlives ⊢
    refine Staffed.spawned (fun w n => ⟨_, rfl, rfl⟩) ⟨hlives, ⟨h.orderly.below, h.orderly.late⟩,
      fun n => ?_, h.alone, fun id n _ hl => ?_, List.nodup_range'⟩
    · show n ∈ w.pool.alive ++ _ ↔ _ ∨ ∃ id, w.loop? id = some n
      simp [halive, hnone]
    · cases (hnone id).symm.trans hl
  · obtain ⟨e, he⟩ := Pool.start_of_not hs s.pool.workerCount
    rw [he]
    exact h

theorem Staffed.stopPool (h : Staffed s [] w) (giveUp : Option Span) :
    Staffed s [] (w.stopPool s giveUp).2 := by
  have hlives := h.lives.stop
  have halive : w.pool.stop.2.alive = w.pool.alive := by
    unfold Pool.stop
    split <;> rfl
  unfold World.stopPool
  split
  · rename_i pool hstop
    rw [hstop] at hlives halive
    exact h.pool halive hlives
  · rename_i pool hstop
    rw [hstop] at hlives halive
    dsimp only
    refine Staffed.waitFor ?_ _
    have hsignal := (h.pool halive hlives).of_board (board_signalPool _)
    exact hsignal.keeps (keeps_spawn hsignal.orderly trivial rfl)

theorem Staffed.poolStep (h : Staffed s [] w) (step : Step) : Staffed s [] (w.poolStep s step).2 := by
  cases step with
  | process worker queues => exact h.waitFor _
  | start queues => exact h.startPool queues
  | stop => exact h.stopPool none
  | stopOrGiveUp d => exact h.stopPool (some d)
  | dropPool => exact (h.of_board (board_signalPool w)).of_board rfl
  | startCleanup =>
    have hspawn : ∀ ticker, Staffed s [] (w.spawn (.cleanup ticker)) :=
      fun ticker => h.keeps (keeps_spawn h.orderly trivial rfl)
    exact (hspawn _).of_board rfl
  | _ => exact h.of_board rfl

theorem Staffed.step (h : Staffed s [] w) (step : Step) : Staffed s [] (w.step s step).2 := by
  cases step with
  | queue q => exact h.of_board (board_queueStep s w q)
  | sleep d => exact h.waitFor _
  | parentShutdown => exact h.of_board (board_wakeListeners { w with parent := w.parent.send })
  | parentDrop => exact h.of_board rfl
  | calls => exact h.of_board rfl
  | cleanupRunning => unfold World.step; dsimp only; split <;> exact h
  | _ =>
    unfold World.step
    dsimp only
    split
    · exact h.poolStep _
    · exact h

theorem Staffed.steps (h : Staffed s [] w) (steps : List Step) :
    Staffed s [] (steps.foldl (fun w step => (w.step s step).2) w) := by
  induction steps generalizing w with
  | nil => exact h
  | cons step steps ih => exact ih (h.step step)

/-- **A scenario that finds its pool stopped runs no loop**, and what became of its pool is what can
    become of one. -/
theorem no_loop_when_stopped (s : Setup σ) (store : σ) (ids : IdSource) (clock : Millis)
    (steps : List Step) :
    let w : World σ := steps.foldl (fun w step => (w.step s step).2)
      { store := store, ids := ids, clock := clock }
    w.pool.Lives s.pool ∧ (w.pool.status = .stopped → ∀ id l phase,
      w.tasks.get? id ≠ some (.loop l phase)) := by
  intro w
  have h : Staffed s [] w := staffed_new.steps steps
  refine ⟨h.lives, fun stopped id l phase here => ?_⟩
  have hnone := h.no_loop_of_stopped stopped id
  rw [loop?, here] at hnone
  cases hnone

end Simulation.World

end JobQueue
