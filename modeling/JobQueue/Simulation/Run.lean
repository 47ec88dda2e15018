/-
  Running a scenario.

  The scenario and the tasks take turns in rounds.  In a round the scenario
  comes first, if it can go on, and after it the tasks that are ready, one by
  one, until none is left or `roundLength` of them had their turn.  When
  nobody can go on the running clock jumps to the next alarm.

  `World.settle` is this loop.  It gives up after `World.patience` turns, so
  that a scenario that never comes to rest has an answer too.
-/
import JobQueue.Simulation.Turn

namespace JobQueue.Simulation

namespace World

variable {σ : Type}

/-! ## The scenario -/

/-- The answer of a worker's cycle, once it is over. -/
def cycleAnswer? : Phase → Option (Except Failure Answer)
  | .finished claimed => some (.ok (.flag claimed))
  | .broken => some (.error .overflow)
  | _ => none

/-- The turn of the scenario: its answer, or what it waits for. -/
def scenarioTurn (s : Setup σ) (w : World σ) (wait : Wait) :
    (Except Failure Answer ⊕ Wait) × World σ :=
  let finish (passed : Nat) (a : Except Failure Answer) (w : World σ) :
      (Except Failure Answer ⊕ Wait) × World σ :=
    (.inl a, { w with
      alarms := w.alarms.filter (·.party ≠ .scenario)
      woken := false
      allowed := w.allowed - passed })
  let on (wait : Wait) (w : World σ) : (Except Failure Answer ⊕ Wait) × World σ :=
    (.inr wait, { w with woken := false })
  match wait with
  | .until tick =>
    if w.allowed = 0 then on wait (w.giveWay .scenario)
    else if tick ≤ w.ticks then finish 1 (.ok (.time (w.now s))) w
    else on wait (w.setAlarm tick .scenario)
  | .drained timeout giveUp =>
    if w.allowed = 0 then on wait (w.giveWay .scenario)
    else if w.pool.status = .stopped then
      finish 1 (.ok (if giveUp.isSome then .word "stopped" else .time (w.now s))) w
    else if timeout ≤ w.ticks then
      finish 1 (.error (.error (.shutdownTimeout s.pool.shutdownTimeout))) w
    else match giveUp with
      | none => on wait (w.setAlarm timeout .scenario)
      | some tick =>
        if tick ≤ w.ticks then finish 1 (.ok (.word "gave up")) w
        else on wait (w.setAlarm (min timeout tick) .scenario)
  | .cycle worker queues phase =>
    let (next, w) := w.cycleSteps s .scenario worker queues phase
    match cycleAnswer? next with
    | some a => finish (if phase = .claiming then 0 else 1) a w
    | none =>
      let wait := Wait.cycle worker queues next
      if w.allowed = 0 then on wait (w.giveWay .scenario) else on wait w

/-- The time of the next alarm. -/
def nextAlarm? (w : World σ) : Option Nat := (w.alarms.map (·.tick)).min?

/-- The running clock jumps to an alarm, which wakes whom it was set for. -/
def jump (tick : Nat) (w : World σ) : World σ :=
  let due := w.alarms.filter (·.tick = tick)
  let w := { w with ticks := tick, alarms := w.alarms.filter (·.tick ≠ tick) }
  due.foldl (fun w a => w.wake a.party) w

/-- What comes before the next round, if `left` tasks could still have had a turn in this one: the
    running clock jumps only if nobody else can go on. -/
def roundEnds? (left : Nat) (w : World σ) : Option (World σ) :=
  if left = 0 || w.woken || !w.spent.isEmpty then some w.wakeSpent
  else (w.nextAlarm?).map fun tick => w.jump tick

/-- How many tasks have a turn in a round. -/
def roundLength : Nat := 61

/-- How many turns a scenario may take until it comes to rest. -/
def patience : Nat := 1000000000

/-- Lets the tasks take turns until the scenario has what it waits for. -/
def settle (s : Setup σ) :
    Nat → (left : Nat) → World σ → Wait → Except Failure Answer × World σ
  | 0, _, w, _ => (.ok .never, w)
  | n + 1, left, w, wait =>
    match left, w.ready with
    | left + 1, id :: ready =>
      let (w, wait) := turn s id { w with ready := ready } wait
      settle s n left w wait
    | left, _ =>
      match w.roundEnds? left with
      | none => (.ok .never, w)
      | some w =>
        if w.woken then
          match { w with allowed := allowance }.scenarioTurn s wait with
          | (.inl a, w) => (a, w)
          | (.inr wait, w) => settle s n roundLength w wait
        else settle s n roundLength w wait

/-- Waits. -/
def waitFor (s : Setup σ) (w : World σ) (wait : Wait) : Except Failure Answer × World σ :=
  match w.scenarioTurn s wait with
  | (.inl a, w) => (a, w)
  | (.inr wait, w) => settle s patience roundLength w wait

/-! ## Steps -/

/-- Starts the pool. -/
def startPool (s : Setup σ) (queues : QueueSet) (w : World σ) : Except Failure Answer × World σ :=
  match w.pool.start s.pool.pollInterval s.pool.workerCount with
  | (.error e, pool) => (.error (.error e), { w with pool := pool })
  | (.ok loops, pool) =>
    let generation := w.signals.length
    let w := { w with pool := pool, signals := w.signals ++ [{}] }
    let first := loops.headD 0
    let add (w : World σ) (loop : Nat) : World σ :=
      let ticker := Ticker.start s.pool.pollInterval w.instant
      w.spawn (.loop ⟨loop, s.workerName (loop - first + 1), queues, generation, ticker⟩ none)
    (.ok .nothing, loops.foldl add w)

/-- Stops the pool, and waits for its end, perhaps only for a while. -/
def stopPool (s : Setup σ) (giveUp : Option Span) (w : World σ) :
    Except Failure Answer × World σ :=
  match w.pool.stop with
  | (.error e, pool) => (.error (.error e), { w with pool := pool })
  | (.ok (), pool) =>
    let w := ({ w with pool := pool }.signalPool).spawn .drain
    let alarm (d : Span) : Nat := (w.instant.alarm d).tick
    w.waitFor s (.drained (alarm s.pool.shutdownTimeout) (giveUp.map alarm))

/-- Makes a step on the pool. -/
def poolStep (s : Setup σ) (w : World σ) : Step → Except Failure Answer × World σ
  | .register type script =>
    let handlers := w.handlers.register type script
    (.ok (.count handlers.size), { w with handlers := handlers })
  | .handlerCount => (.ok (.count w.handlers.size), w)
  | .process worker queues => w.waitFor s (.cycle worker queues .claiming)
  | .start queues => w.startPool s queues
  | .stop => w.stopPool s none
  | .stopOrGiveUp d => w.stopPool s (some d)
  | .status => (.ok (.word w.pool.status.name), w)
  | .dropPool => (.ok .nothing, { w.signalPool with hasPool := false })
  | .startCleanup =>
    let period := if s.pool.cleanupInterval.nanos < 1000000 then .ofMillis 1
      else s.pool.cleanupInterval
    let ticker := (Ticker.start period w.instant).take w.instant
    (.ok .nothing, { w.spawn (.cleanup ticker) with cleanup := some w.nextTask })
  | _ => (.ok .nothing, w)

/-- Makes a step. -/
def step (s : Setup σ) (w : World σ) (step : Step) : Except Failure Answer × World σ :=
  match step with
  | .queue q => w.queueStep s q
  | .sleep d => w.waitFor s (.until (w.instant.alarm d).tick)
  | .parentShutdown =>
    let w := { w with parent := w.parent.send }.wakeListeners
    (.ok (.flag w.parent.sent), w)
  | .parentDrop =>
    let w := { w with parent := w.parent.dropSender }
    (.ok (.flag w.parent.sent), w)
  | .calls => (.ok (.calls (w.calls.mergeSort Call.isBefore)), { w with calls := [] })
  | .cleanupRunning =>
    match w.cleanup with
    | none => (.ok .nothing, w)
    | some id => (.ok (.flag (w.tasks.get? id).isSome), w)
  | step => if w.hasPool then w.poolStep s step else (.ok .noPool, w)

/-- Makes the steps of a scenario, one after the other. -/
def run (s : Setup σ) : World σ → List Step → List (Except Failure Answer)
  | _, [] => []
  | w, step :: steps =>
    let (a, w) := w.step s step
    a :: run s w steps

end World

end JobQueue.Simulation
