/-
  The turns of worker loops.

  In its turn a loop goes on with the cycle that its handler interrupted, and
  takes the ticks that are due.  It looks for a signal between two cycles, and
  nowhere else: there it ends, or where the storage breaks off
  (`ends_of_turn`).
-/
import JobQueue.Proofs.Simulation.Tasks
import JobQueue.Proofs.Worker.Generations

namespace JobQueue.Simulation.World

variable {σ : Type} {s : Setup σ} {w w' : World σ} {id n : Nat}

/-! ## Cycles -/

section
variable (owner : Party) (worker : String) (queues : QueueSet)

theorem keeps_cycleStep (h : w.Orderly) (p : Phase) :
    Keeps w (w.cycleStep s owner worker queues p).2 := by
  unfold cycleStep
  dsimp only
  split
  · exact keeps_of_board h rfl
  · refine Keeps.next ?_ fun h => keeps_spawn h trivial rfl
    exact keeps_of_board h rfl
  · exact keeps_of_board h rfl

theorem keeps_someCycleSteps (h : w.Orderly) (n : Nat) (p : Phase) :
    Keeps w (w.someCycleSteps s owner worker queues n p).2 := by
  induction n generalizing p w with
  | zero => exact .refl h
  | succ n ih =>
    unfold someCycleSteps
    split
    · exact .refl h
    · exact (keeps_cycleStep owner worker queues h _).next fun h => ih h _

/-- A step that is not the handler's makes less of what is left, until nothing is. -/
theorem left_cycleStep {p : Phase} (idle : ∀ job, p ≠ .running job) :
    (w.cycleStep s owner worker queues p).1.left < p.left ∨
      (w.cycleStep s owner worker queues p).1.left = 0 := by
  rw [fst_cycleStep]
  cases due : (w.cycle s worker queues).request? p with
  | some r =>
    rw [Cycle.step_of_due _ _ _ due]
    exact .inl (Cycle.left_answered due _)
  | none =>
    rw [Cycle.step_of_idle _ _ _ due]
    cases p with
    | running job => exact absurd rfl (idle job)
    | finished | broken => exact .inr rfl
    | reporting id report => cases report <;> cases due
    | claiming | admitting | counting => cases due

/-- The steps come to the end of the cycle, or to the run of its handler. -/
theorem left_someCycleSteps {n : Nat} {p : Phase} (steps : p.left ≤ n) :
    (w.someCycleSteps s owner worker queues n p).1.left = 0 ∨
      2 < p.left ∧ ∃ job, (w.someCycleSteps s owner worker queues n p).1 = .running job := by
  induction n generalizing p w with
  | zero => exact .inl (Nat.le_zero.1 steps)
  | succ n ih =>
    unfold someCycleSteps
    split
    · exact .inr ⟨Nat.lt_succ_self 2, _, rfl⟩
    · rename_i idle
      have hstep := left_cycleStep (s := s) (w := w) owner worker queues idle
      generalize w.cycleStep s owner worker queues p = next at hstep ⊢
      obtain ⟨q, w'⟩ := next
      dsimp only at hstep ⊢
      rcases ih (w := w') (p := q) (by omega) with hz | ⟨hlt, hran⟩
      · exact .inl hz
      · exact .inr ⟨by omega, hran⟩

/-- The steps of a cycle come to its end, or to the run of its handler if they had not come past it
    before. -/
theorem fst_cycleSteps (p : Phase) (w : World σ) :
    (∃ claimed, (w.cycleSteps s owner worker queues p).1 = .finished claimed) ∨
      (w.cycleSteps s owner worker queues p).1 = .broken ∨
      2 < p.left ∧ ∃ job, (w.cycleSteps s owner worker queues p).1 = .running job := by
  rcases left_someCycleSteps (s := s) (w := w) owner worker queues p.left_le with hz | hran
  · change (w.cycleSteps s owner worker queues p).1.left = 0 at hz
    generalize (w.cycleSteps s owner worker queues p).1 = q at hz ⊢
    cases q with
    | finished claimed => exact .inl ⟨claimed, rfl⟩
    | broken => exact .inr (.inl rfl)
    | _ => cases hz
  · exact .inr (.inr hran)

end

/-- What a worker comes to in the steps of a cycle.  Its handler runs only if it had not come to the
    end before. -/
theorem cycleSteps_cases {owner : Party} {worker : String} {queues : QueueSet} {p q : Phase}
    (h : w.Orderly) (hc : w.cycleSteps s owner worker queues p = (q, w')) :
    Keeps w w' ∧
      ((∃ claimed, q = .finished claimed) ∨ q = .broken ∨ 2 < p.left ∧ ∃ job, q = .running job) := by
  have hkeeps := keeps_someCycleSteps (s := s) owner worker queues h 5 p
  have hends := fst_cycleSteps (s := s) owner worker queues p w
  change Keeps w (w.cycleSteps s owner worker queues p).2 at hkeeps
  rw [hc] at hkeeps hends
  exact ⟨hkeeps, hends⟩

/-! ## Loops -/

/-- The worlds in which a loop that has its turn is between two cycles. -/
inductive Between (s : Setup σ) (id : Nat) (l : Loop) (w : World σ) :
    Option Phase → World σ → Prop where
  | rest : Between s id l w none w
  | last {p : Phase} {claimed : Bool} {w₁ : World σ}
      (ended : w.cycleSteps s (.task id) l.worker l.queues p = (.finished claimed, w₁)) :
      Between s id l w (some p) w₁
  | next {phase : Option Phase} {claimed : Bool} {w₁ w₂ : World σ}
      (past : Between s id l w phase w₁)
      (ended : w₁.cycleSteps s (.task id) l.worker l.queues .claiming = (.finished claimed, w₂)) :
      Between s id l w phase w₂

theorem Between.keeps {l : Loop} {phase : Option Phase} (h : Between s id l w phase w')
    (orderly : w.Orderly) : Keeps w w' := by
  induction h with
  | rest => exact .refl orderly
  | last ended => exact (cycleSteps_cases orderly ended).1
  | next past ended ih => exact ih.next fun h => (cycleSteps_cases h ended).1

/-- What comes of the turn of a loop. -/
inductive LoopTurned (s : Setup σ) (id : Nat) (l : Loop) (w : World σ) (phase : Option Phase) :
    World σ → Prop where
  | goesOn {w' : World σ} (keeps : Keeps w w') : LoopTurned s id l w phase w'
  /-- It was told to stop. -/
  | told {w₁ : World σ} (between : Between s id l w phase w₁)
      (stopped : w₁.isStopped l.generation = true) :
      LoopTurned s id l w phase (w₁.loopEnds id l.number)
  /-- The storage broke off in a cycle that it began. -/
  | broke {w₁ w₂ : World σ} (between : Between s id l w phase w₁)
      (broken : w₁.cycleSteps s (.task id) l.worker l.queues .claiming = (.broken, w₂)) :
      LoopTurned s id l w phase (w₂.loopEnds id l.number)
  /-- The storage broke off in the cycle in which it was. -/
  | brokeLate {p : Phase} {w₁ : World σ} (here : phase = some p)
      (broken : w.cycleSteps s (.task id) l.worker l.queues p = (.broken, w₁)) :
      LoopTurned s id l w phase (w₁.loopEnds id l.number)

theorem takeTicks_turned {l : Loop} {phase : Option Phase} (orderly : w.Orderly)
    (here : w.loop? id = some l.number) (n : Nat) (ticker : Ticker) {w₁ : World σ}
    (past : Between s id l w phase w₁) :
    LoopTurned s id l w phase (w₁.takeTicks s id n { l with ticker := ticker }) := by
  -- a loop that waits for a tick, or for its handler
  have hset : ∀ {w₁ : World σ} (ticker : Ticker) (phase : Option Phase), Keeps w w₁ →
      (Task.loop { l with ticker := ticker } phase).Late →
      Keeps w (w₁.setTask id (.loop { l with ticker := ticker } phase)) := by
    intro w₁ ticker phase h late
    have hloop : w₁.loop? id = some l.number := (h.loop id).trans here
    exact h.next fun h₁ => keeps_setTask h₁ (lt_of_loop? h₁ hloop) late hloop.symm
  induction n generalizing w₁ ticker with
  | zero =>
    have hwait := hset ticker none (past.keeps orderly) trivial
    exact .goesOn (hwait.next fun h => keeps_of_board h (board_giveWay ..))
  | succ n ih =>
    have hkeeps := past.keeps orderly
    unfold takeTicks
    dsimp only
    split
    · exact .told past ‹_›
    · split
      · generalize hc : w₁.cycleSteps s (.task id) l.worker l.queues .claiming = r
        obtain ⟨q, w₂⟩ := r
        obtain ⟨hcycle, ⟨claimed, rfl⟩ | rfl | ⟨-, job, rfl⟩⟩ := cycleSteps_cases hkeeps.orderly hc
        · exact ih _ (past.next hc)
        · exact .broke past hc
        · have hrun := hset (ticker.take w₁.instant) (some (.running job))
            (hkeeps.next fun _ => hcycle) (.inl ⟨job, rfl⟩)
          refine .goesOn ?_
          dsimp only
          split
          · exact hrun.next fun h => keeps_of_board h (board_giveWay ..)
          · exact hrun
      · have hwait := hset ticker none hkeeps trivial
        exact .goesOn (hwait.next fun h => keeps_of_board h (board_setAlarm ..))

theorem loopTurn_turned {l : Loop} {phase : Option Phase} (orderly : w.Orderly)
    (here : w.tasks.get? id = some (.loop l phase)) :
    LoopTurned s id l w phase (w.loopTurn s id l phase) := by
  have hloop : w.loop? id = some l.number := by rw [loop?, here]; rfl
  unfold loopTurn
  split
  · exact takeTicks_turned orderly hloop _ l.ticker .rest
  · exact .goesOn (.refl orderly)
  · rename_i p idle
    obtain ⟨job, rfl⟩ | late := orderly.late id _ here
    · exact absurd rfl (idle job)
    · generalize hc : w.cycleSteps s (.task id) l.worker l.queues p = r
      obtain ⟨q, w₁⟩ := r
      obtain ⟨-, ⟨claimed, rfl⟩ | rfl | ⟨hlt, -⟩⟩ := cycleSteps_cases orderly hc
      · exact takeTicks_turned orderly hloop _ l.ticker (.last hc)
      · exact .brokeLate rfl hc
      · omega

/-! ## Turns -/

theorem keeps_deliver (h : w.Orderly) (owner : Party) (job : Job) (e : TaskEnd HandlerResult)
    (wait : Wait) : Keeps w (w.deliver s owner job e wait).1 := by
  unfold deliver
  split
  · split
    · rename_i id _ l _ here
      have hloop : w.loop? id = some l.number := by rw [loop?, here]; rfl
      refine Keeps.next ?_ fun h => keeps_of_board h (board_wake ..)
      refine keeps_setTask h (lt_of_loop? h hloop) ?_ hloop.symm
      exact .inr (Nat.le_of_lt_succ (Cycle.left_afterRun ..))
    · exact .refl h
  · split
    · exact keeps_of_board h (board_wake ..)
    · exact .refl h

theorem keeps_cleanupTurn (h : w.Orderly) (below : id < w.nextTask) (here : w.loop? id = none) (n : Nat)
    (ticker : Ticker) : Keeps w (w.cleanupTurn s id n ticker) := by
  induction n generalizing w ticker with
  | zero =>
    refine Keeps.next ?_ fun h => keeps_of_board h (board_giveWay ..)
    exact keeps_setTask h below trivial here.symm
  | succ n ih =>
    unfold cleanupTurn
    dsimp only
    split
    · exact keeps_endTask h here
    · split
      · have hstep := keeps_of_board h (board_queueStep s w (.cleanUp s.pool.cleanupRetention))
        exact hstep.next fun h => ih h (below.trans_le hstep.room) ((hstep.loop id).trans here) _
      · refine Keeps.next ?_ fun h => keeps_of_board h (board_setAlarm ..)
        exact keeps_setTask h below trivial here.symm

/-- What comes of the turn of a task. -/
inductive Turned (s : Setup σ) (id : Nat) (w : World σ) : World σ → Prop where
  | loop {l : Loop} {phase : Option Phase} {w' : World σ}
      (here : w.tasks.get? id = some (.loop l phase)) (turned : LoopTurned s id l w phase w') :
      Turned s id w w'
  /-- The drains see which loops have ended. -/
  | settled {w' : World σ} (keeps : Keeps { w with pool := w.pool.settle } w') : Turned s id w w'
  | other {w' : World σ} (keeps : Keeps w w') : Turned s id w w'

theorem turned (h : w.Orderly) (id : Nat) (wait : Wait) : Turned s id w (w.turn s id wait).1 := by
  have hloop : ∀ {t : Task}, w.tasks.get? id = some t → w.loop? id = t.loop? :=
    fun here => by rw [loop?, here]; rfl
  unfold turn
  split
  · exact .other (.refl h)
  · rename_i l phase here
    exact .loop here (loopTurn_turned h here)
  · rename_i attempt job script owner time here
    dsimp only
    generalize hw₀ : (if time.isNone = true then w.note s .start attempt job else w) = w₀
    have hboard : w₀.board = w.board := by rw [← hw₀]; split <;> rfl
    have hkeeps := keeps_of_board h ((board_handlerTurn s w₀ attempt job script time).trans hboard)
    have hnone := (hkeeps.loop id).trans (hloop here)
    have hbelow := (h.below id _ here).trans_le hkeeps.room
    generalize w₀.handlerTurn s attempt job script time = r at hkeeps hnone hbelow ⊢
    obtain ⟨progress, w₁⟩ := r
    refine .other (hkeeps.next fun h₁ => ?_)
    cases progress with
    | asleep tick rest =>
      refine Keeps.next ?_ fun h => keeps_of_board h (board_setAlarm ..)
      exact keeps_setTask h₁ hbelow trivial hnone.symm
    | spent tick rest =>
      refine Keeps.next ?_ fun h => keeps_of_board h (board_giveWay ..)
      exact keeps_setTask h₁ hbelow trivial hnone.symm
    | ended e =>
      have hnote := keeps_of_board h₁ (board_noteEnd s w₁ e attempt job)
      refine hnote.next fun h => Keeps.next ?_ fun h => keeps_deliver h ..
      exact keeps_endTask h ((hnote.loop id).trans hnone)
  · rename_i ticker here
    exact .other (keeps_cleanupTurn h (h.below id _ here) (hloop here) _ _)
  · rename_i here
    have hsettled : ({ w with pool := w.pool.settle } : World σ).Orderly := ⟨h.below, h.late⟩
    refine .settled ?_
    dsimp only
    split
    · refine Keeps.next ?_ fun h => keeps_of_board h (board_wake ..)
      exact keeps_endTask hsettled (hloop here)
    · exact .refl hsettled

theorem board_loopEnds (w : World σ) (id n : Nat) :
    (w.loopEnds id n).board = (w.tasks.erase id, w.nextTask, w.pool.loopEnds n) := by
  unfold loopEnds
  dsimp only
  rw [board_foldl _ fun w _ => board_wake w _]
  rfl

/-- A loop ends in its own turn, between two cycles if it was told to stop, and in a cycle if the
    storage broke off. -/
theorem ends_of_turn (h : w.Orderly) {wait : Wait} (alive : n ∈ w.pool.alive)
    (dead : n ∉ (w.turn s id wait).1.pool.alive) :
    ∃ l phase, w.tasks.get? id = some (.loop l phase) ∧ l.number = n ∧
      ((∃ w₁, Between s id l w phase w₁ ∧ (w₁.isStopped l.generation = true ∨
          (w₁.cycleSteps s (.task id) l.worker l.queues .claiming).1 = .broken)) ∨
        ∃ p, phase = some p ∧ (w.cycleSteps s (.task id) l.worker l.queues p).1 = .broken) := by
  have hsame : ∀ {w₁ : World σ} {l : Loop}, w₁.pool = w.pool →
      n ∉ (w₁.loopEnds id l.number).pool.alive → l.number = n := by
    intro w₁ l hpool hdead
    have hends : (w₁.loopEnds id l.number).pool = w₁.pool.loopEnds l.number :=
      congrArg (·.2.2) (board_loopEnds w₁ id l.number)
    rw [hends, hpool] at hdead
    by_contra hne
    exact hdead (List.mem_filter.2 ⟨alive, decide_eq_true (Ne.symm hne)⟩)
  generalize hw : (w.turn s id wait).1 = w' at dead
  cases hw ▸ turned (s := s) h id wait with
  | other keeps => rw [keeps.pool] at dead; exact absurd alive dead
  | settled keeps =>
    rw [keeps.pool, Pool.alive_settle] at dead
    exact absurd alive dead
  | loop here turned =>
    refine ⟨_, _, here, ?_⟩
    cases turned with
    | goesOn keeps => rw [keeps.pool] at dead; exact absurd alive dead
    | told between stopped =>
      exact ⟨hsame (between.keeps h).pool dead, .inl ⟨_, between, .inl stopped⟩⟩
    | broke between broken =>
      have hkeeps := (between.keeps h).next fun h => (cycleSteps_cases h broken).1
      exact ⟨hsame hkeeps.pool dead, .inl ⟨_, between, .inr (by rw [broken])⟩⟩
    | brokeLate at_ broken =>
      exact ⟨hsame (cycleSteps_cases h broken).1.pool dead, .inr ⟨_, at_, by rw [broken]⟩⟩

end JobQueue.Simulation.World
