/-
  The turns of tasks.

  In its turn a task goes on until it waits for an alarm, for another task or
  for a signal.  A wait that is over at once is passed, but only `allowance`
  times in a turn: the next one a task leaves to its next turn.
-/
import JobQueue.Json.Value
import JobQueue.Simulation.World

namespace JobQueue.Simulation

namespace World

variable {σ : Type}

/-! ## Handlers -/

/-- How far a handler came in its turn. -/
inductive Progress where
  /-- It waits for a time, and goes on then with the rest of its script. -/
  | asleep (tick : Nat) (rest : Script)
  /-- So it does, and used up its turn before it could look at the clock. -/
  | spent (tick : Nat) (rest : Script)
  | ended (result : TaskEnd HandlerResult)

/-- The time that is left to a run, in words. -/
def remainingText (a : Attempt) (now : Instant) : String :=
  let left := a.remaining now
  let nanos := toString left.subsecNanos
  let zeros := String.ofList (List.replicate (9 - nanos.length) '0')
  toString left.secs ++ "." ++ zeros ++ nanos ++ " " ++ toString (a.isExpired now)

/-- The payload of a job read as JSON and written again. -/
def decodeResult (job : Job) : HandlerResult :=
  match Json.decode job.payload.bytes with
  | .ok v => .ok (some (.ofJson v))
  | .error f => .error (f.message job.payload.bytes)

/-- Follows a script until it ends or waits.  `allowed` waits that are over at once are passed. -/
def follow (s : Setup σ) (a : Attempt) (job : Job) :
    Script → (allowed : Nat) → World σ → Progress × World σ
  | [], _, w => (.ended (.returned (.ok none)), w)
  | action :: rest, allowed, w =>
    let sleepUntil (i : Instant) : Progress × World σ :=
      if allowed = 0 then (.spent i.tick rest, w)
      else if i.tick ≤ w.ticks then follow s a job rest (allowed - 1) w
      else (.asleep i.tick rest, w)
    match action with
    | .succeed result => (.ended (.returned (.ok result)), w)
    | .fail message => (.ended (.returned (.error message)), w)
    | .failBefore n =>
      if a.number < n then
        (.ended (.returned (.error ("transient error on attempt " ++ toString a.number.toInt))), w)
      else follow s a job rest allowed w
    | .panic why => (.ended (.brokeOff why), w)
    | .sleep d => sleepUntil (w.instant.alarm d)
    | .check =>
      match a.check w.instant with
      | .error e => (.ended (.returned (.error e)), w)
      | .ok () => follow s a job rest allowed w
    | .awaitDeadline => sleepUntil a.deadline
    | .echo => (.ended (.returned (.ok (some job.payload))), w)
    | .decode => (.ended (.returned (decodeResult job)), w)
    | .remaining => (.ended (.returned (.ok (some (.ofText (remainingText a w.instant))))), w)
    | .step make => follow s a job rest allowed (w.queueStep s (make job.id)).2

/-- The turn of a handler that has not begun or waits for a time. -/
def handlerTurn (s : Setup σ) (a : Attempt) (job : Job) (script : Script) (w : World σ) :
    (time : Option Nat) → Progress × World σ
  | none => w.follow s a job script allowance
  | some tick =>
    if tick ≤ w.ticks then w.follow s a job script (allowance - 1) else (.asleep tick script, w)

/-- Writes a line of the record of runs. -/
def note (s : Setup σ) (e : RunEvent) (a : Attempt) (job : Job) (w : World σ) : World σ :=
  { w with calls := w.calls ++ [⟨e, w.now s, job.id, a.number, a.worker⟩] }

/-- The record of runs after the end of a run; a run that breaks off leaves no line. -/
def noteEnd (s : Setup σ) (e : TaskEnd HandlerResult) (a : Attempt) (job : Job) (w : World σ) :
    World σ :=
  match e with
  | .returned (.ok _) => w.note s .ok a job
  | .returned (.error _) => w.note s .err a job
  | _ => w

/-! ## Cycles -/

/-- The cycle of a worker. -/
def cycle (s : Setup σ) (w : World σ) (worker : String) (queues : QueueSet) : Cycle :=
  ⟨worker, queues, s.pool.rateLimiting, fun type => (w.handlers.find? type).isSome⟩

/-- The phase of a worker after its handler. -/
def afterRun (s : Setup σ) (w : World σ) (worker : String) (queues : QueueSet) (job : Job)
    (e : TaskEnd HandlerResult) : Phase :=
  (w.cycle s worker queues).afterRun job e.outcome

/-- Makes the step of a phase; a worker that comes to run a handler spawns it. -/
def cycleStep (s : Setup σ) (owner : Party) (worker : String) (queues : QueueSet) (p : Phase)
    (w : World σ) : Phase × World σ :=
  let (next, store) :=
    (w.cycle s worker queues).step (s.store.refusing w.refused) (w.now s) p w.store
  let w := { w with store := store }
  match p, next with
  | .running _, _ => (next, w)
  | _, .running job =>
    let attempt := Attempt.start worker job.attempts s.pool.jobTimeout w.instant
    let script := (w.handlers.find? job.type).getD []
    (next, w.spawn (.handler attempt job script owner none))
  | _, _ => (next, w)

/-- Makes a number of steps of a cycle, unless its handler comes to run before. -/
def someCycleSteps (s : Setup σ) (owner : Party) (worker : String) (queues : QueueSet) :
    (steps : Nat) → Phase → World σ → Phase × World σ
  | 0, p, w => (p, w)
  | n + 1, p, w =>
    match p with
    | .running _ => (p, w)
    | p =>
      let (p, w) := w.cycleStep s owner worker queues p
      someCycleSteps s owner worker queues n p w

/-- Makes the steps of a cycle until it is over or its handler runs.  No cycle has more than five
    steps. -/
def cycleSteps (s : Setup σ) (owner : Party) (worker : String) (queues : QueueSet) (p : Phase)
    (w : World σ) : Phase × World σ :=
  w.someCycleSteps s owner worker queues 5 p

/-- Tells the owner of a handler how it ended. -/
def deliver (s : Setup σ) (owner : Party) (job : Job) (e : TaskEnd HandlerResult)
    (w : World σ) (wait : Wait) : World σ × Wait :=
  match owner with
  | .task id =>
    match w.tasks.get? id with
    | some (.loop l (some (.running _))) =>
      let phase := w.afterRun s l.worker l.queues job e
      ((w.setTask id (.loop l (some phase))).wake owner, wait)
    | _ => (w, wait)
  | .scenario =>
    match wait with
    | .cycle worker queues (.running _) =>
      (w.wake owner, .cycle worker queues (w.afterRun s worker queues job e))
    | _ => (w, wait)

/-! ## Worker loops -/

/-- The end of a worker loop. -/
def loopEnds (id number : Nat) (w : World σ) : World σ :=
  let w := { w with pool := w.pool.loopEnds number }.endTask id
  let drains := w.tasks.filter fun t => match t.2 with
    | .drain => true
    | _ => false
  drains.foldl (fun w t => w.wake (.task t.1)) w

/-- A worker loop between two ticks.  It takes the ticks that are due and waits for the next one,
    unless a cycle comes to run a handler. -/
def takeTicks (s : Setup σ) (id : Nat) : (allowed : Nat) → Loop → World σ → World σ
  | 0, l, w => (w.setTask id (.loop l none)).giveWay (.task id)
  | allowed + 1, l, w =>
    if w.isStopped l.generation then w.loopEnds id l.number
    else if l.ticker.isDue w.ticks then
      let l := { l with ticker := l.ticker.take w.instant }
      let (phase, w) := w.cycleSteps s (.task id) l.worker l.queues .claiming
      match phase with
      | .finished _ => takeTicks s id allowed l w
      | .broken => w.loopEnds id l.number
      | phase =>
        let w := w.setTask id (.loop l (some phase))
        if allowed = 0 then w.giveWay (.task id) else w
    else (w.setTask id (.loop l none)).setAlarm l.ticker.due.tick (.task id)

/-- The turn of a worker loop. -/
def loopTurn (s : Setup σ) (id : Nat) (l : Loop) (w : World σ) : Option Phase → World σ
  | none => w.takeTicks s id allowance l
  | some (.running _) => w
  | some phase =>
    let (phase, w) := w.cycleSteps s (.task id) l.worker l.queues phase
    match phase with
    | .broken => w.loopEnds id l.number
    | _ => w.takeTicks s id (allowance - 1) l

/-! ## Turns -/

/-- The cleanup takes the ticks that are due and waits for the next one. -/
def cleanupTurn (s : Setup σ) (id : Nat) : (allowed : Nat) → Ticker → World σ → World σ
  | 0, ticker, w => (w.setTask id (.cleanup ticker)).giveWay (.task id)
  | allowed + 1, ticker, w =>
    if w.parent.sent then w.endTask id
    else if ticker.isDue w.ticks then
      let (_, w) := w.queueStep s (.cleanUp s.pool.cleanupRetention)
      cleanupTurn s id allowed (ticker.take w.instant) w
    else (w.setTask id (.cleanup ticker)).setAlarm ticker.due.tick (.task id)

/-- The turn of a task.  Returns also what the scenario waits for, which the end of a handler can
    change. -/
def turn (s : Setup σ) (id : Nat) (w : World σ) (wait : Wait) : World σ × Wait :=
  match w.tasks.get? id with
  | none => (w, wait)
  | some (.loop l phase) => (w.loopTurn s id l phase, wait)
  | some (.handler attempt job script owner time) =>
    let w := if time.isNone then w.note s .start attempt job else w
    let waiting (tick : Nat) (rest : Script) (w : World σ) : World σ :=
      w.setTask id (.handler attempt job rest owner (some tick))
    match w.handlerTurn s attempt job script time with
    | (.asleep tick rest, w) => ((waiting tick rest w).setAlarm tick (.task id), wait)
    | (.spent tick rest, w) => ((waiting tick rest w).giveWay (.task id), wait)
    | (.ended e, w) => ((w.noteEnd s e attempt job).endTask id).deliver s owner job e wait
  | some (.cleanup ticker) => (w.cleanupTurn s id allowance ticker, wait)
  | some .drain =>
    let w := { w with pool := w.pool.settle }
    if w.pool.drains.isEmpty then ((w.endTask id).wake .scenario, wait) else (w, wait)

end World

end JobQueue.Simulation
