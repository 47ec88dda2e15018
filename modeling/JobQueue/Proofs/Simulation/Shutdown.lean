/-
  Worker loops that are told to stop, in a scenario.

  In its turn a worker loop of a scenario takes turns of a `Listener`, one
  after the other, until it has ended, waits for a tick, or its handler runs
  (`next_loopTurn`); the end of the handler is one more (`next_deliver`).  Nobody
  comes in between: a loop that is told before its turn makes what is left of
  its cycle and ends (`loopTurn_of_told`), and a loop that waits is woken to be
  told (`due_signalPool`, `due_wakeListeners`).
-/
import JobQueue.Proofs.Simulation.Turn
import JobQueue.Proofs.Worker.Shutdown

namespace JobQueue.Simulation.World

open Relation (ReflTransGen)

variable {σ : Type} {s : Setup σ} {w w' : World σ} {id : Nat} {l : Loop}

/-! ## What a loop does in its turn -/

/-- Was the signal sent of the start that a loop comes from? -/
def ownSent (w : World σ) (l : Loop) : Bool := w.signals[l.generation]?.any (·.sent)

/-- A loop that has its turn: where it is, and its ticker. -/
structure Going (σ : Type) where
  point : Point
  ticker : Ticker
  world : World σ

/-- What a loop does next in its turn. -/
inductive GoesOn (s : Setup σ) (id : Nat) (l : Loop) : Going σ → Going σ → Prop where
  /-- It looks at a signal. -/
  | looks {x y : Point} {ticker : Ticker} {w : World σ} (look : x = .own ∨ x = .parent)
      (next : Point.Next (w.ownSent l) w.parent.sent x y) :
      GoesOn s id l ⟨x, ticker, w⟩ ⟨y, ticker, w⟩
  | begins {ticker : Ticker} {w : World σ} (due : ticker.isDue w.ticks = true) :
      GoesOn s id l ⟨.tick, ticker, w⟩ ⟨.cycle .claiming, ticker.take w.instant, w⟩
  | asks {p : Phase} {r : Request} {ticker : Ticker} {w : World σ}
      (due : (w.cycle s l.worker l.queues).request? p = some r) :
      GoesOn s id l ⟨.cycle p, ticker, w⟩
        ⟨.ofPhase (w.cycleStep s (.task id) l.worker l.queues p).1, ticker,
          (w.cycleStep s (.task id) l.worker l.queues p).2⟩

/-- What a loop comes to by the end of its turn, and the world then. -/
inductive Rests (id : Nat) (l : Loop) : Going σ → World σ → Prop where
  | ends {g : Going σ} (ended : g.point.isOver = true) :
      Rests id l g (g.world.loopEnds id l.number)
  /-- No tick is due. -/
  | waits {ticker : Ticker} {w w' : World σ} (early : ticker.isDue w.ticks = false)
      (here : w'.tasks.get? id = some (.loop { l with ticker := ticker } none)) :
      Rests id l ⟨.tick, ticker, w⟩ w'
  /-- It had as many ticks as it may have in a turn. -/
  | pauses {ticker : Ticker} {w w' : World σ}
      (here : w'.tasks.get? id = some (.loop { l with ticker := ticker } none)) :
      Rests id l ⟨.own, ticker, w⟩ w'
  | runs {ticker : Ticker} {job : Job} {w w' : World σ}
      (here : w'.tasks.get? id = some (.loop { l with ticker := ticker } (some (.running job)))) :
      Rests id l ⟨.cycle (.running job), ticker, w⟩ w'

/-- The steps of a cycle are nothing to the signals. -/
theorem signals_cycleStep (owner : Party) (worker : String) (queues : QueueSet) (p : Phase)
    (w : World σ) :
    (w.cycleStep s owner worker queues p).2.signals = w.signals ∧
      (w.cycleStep s owner worker queues p).2.parent = w.parent := by
  unfold cycleStep
  dsimp only
  split <;> exact ⟨rfl, rfl⟩

theorem signals_cycleSteps (owner : Party) (worker : String) (queues : QueueSet) (p : Phase)
    (w : World σ) :
    (w.cycleSteps s owner worker queues p).2.signals = w.signals ∧
      (w.cycleSteps s owner worker queues p).2.parent = w.parent := by
  have hsteps : ∀ (n : Nat) (p : Phase) (w : World σ),
      (w.someCycleSteps s owner worker queues n p).2.signals = w.signals ∧
        (w.someCycleSteps s owner worker queues n p).2.parent = w.parent := by
    intro n
    induction n with
    | zero => exact fun p w => ⟨rfl, rfl⟩
    | succ n ih =>
      intro p w
      unfold someCycleSteps
      split
      · exact ⟨rfl, rfl⟩
      · obtain ⟨hsignals, hparent⟩ := signals_cycleStep (s := s) owner worker queues p w
        obtain ⟨hsignals', hparent'⟩ := ih (w.cycleStep s owner worker queues p).1
          (w.cycleStep s owner worker queues p).2
        exact ⟨hsignals'.trans hsignals, hparent'.trans hparent⟩
  exact hsteps 5 p w

/-- **What a loop does in its turn is a turn of a listener**, and nothing to the signals. -/
theorem GoesOn.next {g g' : Going σ} (h : GoesOn s id l g g') :
    Point.Next (g.world.ownSent l) g.world.parent.sent g.point g'.point ∧
      g'.world.signals = g.world.signals ∧ g'.world.parent = g.world.parent := by
  cases h with
  | looks look next => exact ⟨next, rfl, rfl⟩
  | begins due => exact ⟨.begins, rfl, rfl⟩
  | @asks p r ticker w due =>
    refine ⟨?_, signals_cycleStep _ _ _ p w⟩
    dsimp only
    rw [fst_cycleStep, Cycle.step_of_due _ _ _ due]
    exact .asks _ due _

/-- A turn of a loop is a row of turns of a listener, in the light of the signals that the turn
    began with. -/
theorem next_of_goesOn {g g' : Going σ} (h : ReflTransGen (GoesOn s id l) g g') :
    ReflTransGen (Point.Next (g.world.ownSent l) g.world.parent.sent) g.point g'.point := by
  have hkept : ReflTransGen (Point.Next (g.world.ownSent l) g.world.parent.sent) g.point g'.point ∧
      g'.world.signals = g.world.signals ∧ g'.world.parent = g.world.parent := by
    induction h with
    | refl => exact ⟨.refl, rfl, rfl⟩
    | tail past next ih =>
      obtain ⟨hpast, hsignals, hparent⟩ := ih
      obtain ⟨hnext, hsignals', hparent'⟩ := next.next
      rw [ownSent, hsignals, hparent] at hnext
      exact ⟨hpast.tail hnext, hsignals'.trans hsignals, hparent'.trans hparent⟩
  exact hkept.1

/-! ## Turns -/

theorem tasks_setTask (w : World σ) (t : Task) : (w.setTask id t).tasks.get? id = some t := by
  show (w.tasks.put id t).get? id = _
  simp [Keyed.get?_put]

/-- A loop makes the steps of its cycle one after the other. -/
theorem goesOn_cycleSteps (id : Nat) (l : Loop) (p : Phase) (ticker : Ticker) (w : World σ) :
    ReflTransGen (GoesOn s id l) ⟨.ofPhase p, ticker, w⟩
      ⟨.ofPhase (w.cycleSteps s (.task id) l.worker l.queues p).1, ticker,
        (w.cycleSteps s (.task id) l.worker l.queues p).2⟩ := by
  have hsteps : ∀ (n : Nat) (p : Phase) (w : World σ),
      ReflTransGen (GoesOn s id l) ⟨.ofPhase p, ticker, w⟩
        ⟨.ofPhase (w.someCycleSteps s (.task id) l.worker l.queues n p).1, ticker,
          (w.someCycleSteps s (.task id) l.worker l.queues n p).2⟩ := by
    intro n
    induction n with
    | zero => exact fun p w => .refl
    | succ n ih =>
      intro p w
      have hasked : ∀ r, (w.cycle s l.worker l.queues).request? p = some r →
          Point.ofPhase p = .cycle p := by
        intro r due
        cases p <;> first | rfl | cases due
      unfold someCycleSteps
      split
      · exact .refl
      · rename_i idle
        cases due : (w.cycle s l.worker l.queues).request? p with
        | some r =>
          rw [hasked r due]
          exact .head (.asks due) (ih _ _)
        | none =>
          have hstill : w.cycleStep s (.task id) l.worker l.queues p = (p, w) := by
            cases p with
            | running job => exact absurd rfl (idle job)
            | finished | broken => rfl
            | reporting id report => cases report <;> cases due
            | claiming | admitting | counting => cases due
          rw [hstill]
          exact ih p w
  exact hsteps 5 p w

/-- Between two cycles it looks at its signals, and either is told or may take a tick. -/
theorem goesOn_looks (id : Nat) (l : Loop) (ticker : Ticker) (w : World σ) :
    ReflTransGen (GoesOn s id l) ⟨.own, ticker, w⟩
      ⟨if w.isStopped l.generation then .told else .tick, ticker, w⟩ := by
  have hstopped : w.isStopped l.generation = (w.parent.sent || w.ownSent l) := rfl
  rw [hstopped]
  cases hown : w.ownSent l with
  | true =>
    rw [Bool.or_true]
    exact .single (.looks (.inl rfl) (.stops hown))
  | false =>
    have hpast : GoesOn s id l ⟨.own, ticker, w⟩ ⟨.parent, ticker, w⟩ :=
      .looks (.inl rfl) (.passes hown)
    rw [Bool.or_false]
    cases hparent : w.parent.sent with
    | true => exact .head hpast (.single (.looks (.inr rfl) (.stopsLate hparent)))
    | false => exact .head hpast (.single (.looks (.inr rfl) (.passesLate hparent)))

/-- It takes the ticks that are due, and makes a cycle for each. -/
theorem goesOn_takeTicks (id : Nat) (l : Loop) (n : Nat) (ticker : Ticker) (w : World σ) :
    ∃ g, ReflTransGen (GoesOn s id l) ⟨.own, ticker, w⟩ g ∧
      Rests id l g (w.takeTicks s id n { l with ticker := ticker }) := by
  induction n generalizing w ticker with
  | zero => exact ⟨_, .refl, .pauses (tasks_setTask w _)⟩
  | succ n ih =>
    have hlooks := goesOn_looks (s := s) id l ticker w
    unfold takeTicks
    dsimp only
    split
    · rename_i hstopped
      rw [if_pos hstopped] at hlooks
      exact ⟨_, hlooks, .ends rfl⟩
    · rename_i hstopped
      rw [if_neg hstopped] at hlooks
      split
      · rename_i hdue
        have hcycle := (hlooks.tail (.begins hdue)).trans
          (goesOn_cycleSteps (s := s) id l .claiming (ticker.take w.instant) w)
        have hends := fst_cycleSteps (s := s) (.task id) l.worker l.queues .claiming w
        generalize w.cycleSteps s (.task id) l.worker l.queues .claiming = r at hcycle hends ⊢
        obtain ⟨q, w₁⟩ := r
        dsimp only at hcycle hends ⊢
        obtain ⟨claimed, rfl⟩ | rfl | ⟨-, job, rfl⟩ := hends
        · obtain ⟨g, hg, rests⟩ := ih (ticker.take w.instant) w₁
          exact ⟨g, hcycle.trans hg, rests⟩
        · exact ⟨_, hcycle, .ends rfl⟩
        · refine ⟨_, hcycle, .runs ?_⟩
          dsimp only
          split <;> exact tasks_setTask w₁ _
      · rename_i hearly
        refine ⟨_, hlooks, .waits (by simpa using hearly) ?_⟩
        have htasks := congrArg (·.1) (board_setAlarm (w.setTask id
          (.loop { l with ticker := ticker } none)) ticker.due.tick (.task id))
        exact (congrArg (·.get? id) htasks).trans (tasks_setTask w _)

/-- Where a loop is before its turn. -/
def pointOf : Option Phase → Point
  | none => .own
  | some p => .ofPhase p

/-- It goes on with its cycle, and then with the ticks that are due. -/
theorem goesOn_loopTurn {phase : Option Phase} (orderly : w.Orderly)
    (here : w.tasks.get? id = some (.loop l phase)) :
    ∃ g, ReflTransGen (GoesOn s id l) ⟨pointOf phase, l.ticker, w⟩ g ∧
      Rests id l g (w.loopTurn s id l phase) := by
  unfold loopTurn
  split
  · exact goesOn_takeTicks id l _ l.ticker w
  · exact ⟨_, .refl, .runs here⟩
  · rename_i p idle
    obtain ⟨job, rfl⟩ | late := orderly.late id _ here
    · exact absurd rfl (idle job)
    · have hcycle := goesOn_cycleSteps (s := s) id l p l.ticker w
      have hends := fst_cycleSteps (s := s) (.task id) l.worker l.queues p w
      generalize w.cycleSteps s (.task id) l.worker l.queues p = r at hcycle hends ⊢
      obtain ⟨q, w₁⟩ := r
      dsimp only at hcycle hends ⊢
      obtain ⟨claimed, rfl⟩ | rfl | ⟨hlt, -⟩ := hends
      · obtain ⟨g, hg, rests⟩ := goesOn_takeTicks (s := s) id l (allowance - 1) l.ticker w₁
        exact ⟨g, hcycle.trans hg, rests⟩
      · exact ⟨_, hcycle, .ends rfl⟩
      · omega

/-- **In its turn a loop takes turns of a listener**, in the light of the signals as they are, until
    it has ended, waits for a tick, or its handler runs. -/
theorem next_loopTurn {phase : Option Phase} (orderly : w.Orderly)
    (here : w.tasks.get? id = some (.loop l phase)) :
    ∃ g : Going σ, ReflTransGen (Point.Next (w.ownSent l) w.parent.sent) (pointOf phase) g.point ∧
      Rests id l g (w.loopTurn s id l phase) := by
  obtain ⟨g, hg, rests⟩ := goesOn_loopTurn (s := s) orderly here
  exact ⟨g, next_of_goesOn hg, rests⟩

/-- The end of a handler is a turn of the loop that waits for it. -/
theorem next_deliver {job : Job} (here : w.tasks.get? id = some (.loop l (some (.running job))))
    (e : TaskEnd HandlerResult) (wait : Wait) (own parent : Bool) :
    ∃ phase, (w.deliver s (.task id) job e wait).1.tasks.get? id = some (.loop l (some phase)) ∧
      Point.Next own parent (.cycle (.running job)) (.ofPhase phase) := by
  refine ⟨w.afterRun s l.worker l.queues job e, ?_, .runs _ job e.outcome⟩
  have htasks : ∀ w' : World σ, (w'.wake (.task id)).tasks = w'.tasks :=
    fun w' => congrArg (·.1) (board_wake w' _)
  unfold deliver
  simp only [here]
  rw [htasks]
  exact tasks_setTask w _

/-! ## Loops that are told -/

/-- **A loop that is told before its turn makes what is left of its cycle, and ends.** -/
theorem loopTurn_of_told {phase : Option Phase} (orderly : w.Orderly)
    (here : w.tasks.get? id = some (.loop l phase)) (told : w.isStopped l.generation = true) :
    (phase = none → w.loopTurn s id l phase = w.loopEnds id l.number) ∧
    ∀ p, phase = some p → (∀ job, p ≠ .running job) →
      w.loopTurn s id l phase =
        (w.cycleSteps s (.task id) l.worker l.queues p).2.loopEnds id l.number := by
  have hnow : ∀ (w : World σ) (n : Nat), w.isStopped l.generation = true →
      w.takeTicks s id (n + 1) l = w.loopEnds id l.number := by
    intro w n h
    rw [takeTicks, if_pos h]
  constructor
  · rintro rfl
    exact hnow w (allowance - 1) told
  · rintro p rfl idle
    obtain ⟨job, rfl⟩ | late := orderly.late id _ here
    · exact absurd rfl (idle job)
    · obtain ⟨hsignals, hparent⟩ := signals_cycleSteps (s := s) (.task id) l.worker l.queues p w
      have htold : (w.cycleSteps s (.task id) l.worker l.queues p).2.isStopped l.generation = true := by
        rw [isStopped, hsignals, hparent]
        exact told
      unfold loopTurn
      split
      · contradiction
      · rename_i job h
        exact absurd (Option.some.inj h) (idle job)
      · rename_i q _ h
        obtain rfl := Option.some.inj h
        dsimp only
        split
        · rfl
        · exact hnow _ (allowance - 2) htold

/-- A task will have its turn, in this round or in the next. -/
def Due (w : World σ) (id : Nat) : Prop := id ∈ w.ready ∨ .task id ∈ w.spent

theorem due_wake (w : World σ) (id : Nat) : (w.wake (.task id)).Due id := by
  unfold wake
  split
  · exact .inr (by simpa using ‹w.spent.contains (.task id) = true›)
  · dsimp only
    split
    · exact .inl (by simpa using ‹w.ready.contains id = true›)
    · exact .inl (List.mem_append_right _ List.mem_cons_self)

theorem Due.wake (h : w.Due id) (p : Party) : (w.wake p).Due id := by
  unfold World.wake
  split
  · exact h
  · cases p with
    | scenario => exact h
    | task id' =>
      dsimp only
      split
      · exact h
      · exact h.imp_left (List.mem_append_left _)

/-- Those who are woken have their turn. -/
theorem due_foldl {tasks : List (Nat × Task)} {t : Task} (mem : (id, t) ∈ tasks) (w : World σ) :
    (tasks.foldl (fun w t => w.wake (.task t.1)) w).Due id := by
  have hkeep : ∀ (tasks : List (Nat × Task)) (w : World σ), w.Due id →
      (tasks.foldl (fun w t => w.wake (.task t.1)) w).Due id := by
    intro tasks
    induction tasks with
    | nil => exact fun w h => h
    | cons t tasks ih => exact fun w h => ih _ (h.wake _)
  induction tasks generalizing w with
  | nil => cases mem
  | cons t' tasks ih =>
    rcases List.mem_cons.1 mem with rfl | mem
    · exact hkeep tasks _ (due_wake w id)
    · exact ih mem _

/-- A pool that is stopped or dropped wakes the loops of its last start that wait. -/
theorem due_signalPool (here : w.tasks.get? id = some (.loop l none))
    (last : l.generation + 1 = w.signals.length) : w.signalPool.Due id := by
  unfold signalPool wakeGeneration
  refine due_foldl (t := .loop l none) (List.mem_filter.2 ⟨Keyed.mem_of_get? here, ?_⟩) _
  simp [← last]

/-- So does the signal that a pool was started with. -/
theorem due_wakeListeners (here : w.tasks.get? id = some (.loop l none)) : w.wakeListeners.Due id := by
  unfold wakeListeners
  exact due_foldl (t := .loop l none) (List.mem_filter.2 ⟨Keyed.mem_of_get? here, rfl⟩) _

end JobQueue.Simulation.World
