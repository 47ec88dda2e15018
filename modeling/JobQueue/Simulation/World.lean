/-
  The state of a scenario, and the steps that take no time.

  Time passes in two ways: the clock can be set and moved by hand, and the
  running clock goes forward while everything waits.  A store in the memory of
  the process sees both, a store in a database only the first.
-/
import JobQueue.Producer
import JobQueue.Simulation.Script
import JobQueue.Sweep
import JobQueue.Worker.Attempt
import JobQueue.Worker.Cycle
import JobQueue.Worker.Pool
import JobQueue.Worker.Setup
import JobQueue.Worker.Signal
import JobQueue.Worker.Ticker

namespace JobQueue.Simulation

/-! ## Setup -/

/-- Where the ids of new jobs come from: a list that is handed out in turn and then again from
    its beginning, or numbered names where there is no list. -/
structure IdSource where
  list : List String
  /-- How many ids were handed out. -/
  used : Nat
  deriving DecidableEq, Repr, Inhabited

namespace IdSource

/-- The id that is handed out next. -/
def next (s : IdSource) : String :=
  s.list.getD (s.used % s.list.length) ("job-" ++ toString (s.used + 1))

def advance (s : IdSource) : IdSource := { s with used := s.used + 1 }

end IdSource

/-- What a scenario runs on. -/
structure Setup (σ : Type) where
  store : Store σ
  /-- Two reports of a failure under way at the same time. -/
  failPair : Millis → (id message₁ message₂ : String) → σ →
    Except Failure Unit × Except Failure Unit × σ
  /-- Does the clock of the store follow the running clock? -/
  followsTime : Bool
  pool : PoolSetup
  /-- The name of the worker with a number. -/
  workerName : Nat → String

/-! ## State -/

/-- What is to be told of the end of a handler, or woken by an alarm: the scenario itself, or a
    task. -/
inductive Party where
  | scenario
  | task (id : Nat)
  deriving DecidableEq, Repr, Inhabited

/-- A worker loop. -/
structure Loop where
  number : Nat
  worker : String
  queues : QueueSet
  /-- The start that it comes from. -/
  generation : Nat
  ticker : Ticker
  deriving DecidableEq, Repr, Inhabited

/-- What runs beside the scenario. -/
inductive Task where
  /-- A worker loop, between two ticks or in a cycle. -/
  | loop (l : Loop) (phase : Option Phase)
  /-- A handler, which has not begun or waits for a time on the running clock. -/
  | handler (attempt : Attempt) (job : Job) (script : Script) (owner : Party) (time : Option Nat)
  | cleanup (ticker : Ticker)
  | drain

/-- An alarm.  Of alarms for the same millisecond the one that was set first goes off first. -/
structure Alarm where
  tick : Nat
  party : Party
  deriving DecidableEq, Repr, Inhabited

/-- What the scenario waits for. -/
inductive Wait where
  | until (tick : Nat)
  /-- For the end of a stop, or for one of two alarms: the stop runs out of time, or the scenario
      gives up. -/
  | drained (timeout : Nat) (giveUp : Option Nat)
  /-- For the end of a cycle. -/
  | cycle (worker : String) (queues : QueueSet) (phase : Phase)

/-- How many waits that are over at once a party may pass in one turn.  The next one it leaves to
    its next turn, even if it is over at once. -/
def allowance : Nat := 128

/-- The state of a scenario. -/
structure World (σ : Type) where
  store : σ
  ids : IdSource
  /-- The part of the time of day that is set by hand. -/
  clock : Millis
  /-- Milliseconds on the running clock. -/
  ticks : Nat := 0
  refused : List String := []
  handlers : Registry Script := {}
  calls : List Call := []
  /-- The pool, unless it was dropped. -/
  hasPool : Bool := true
  pool : Pool := {}
  /-- The signals to the generations of workers, in the order of their starts. -/
  signals : List Signal := []
  parent : Signal := {}
  /-- The task of the cleanup, if it was started. -/
  cleanup : Option Nat := none
  tasks : Keyed Nat Task := []
  nextTask : Nat := 0
  /-- The tasks that can go on, in the order of their turns. -/
  ready : List Nat := []
  /-- The alarms, in the order in which they were set. -/
  alarms : List Alarm := []
  /-- Can the scenario go on? -/
  woken : Bool := false
  /-- How many waits that are over at once the scenario may still pass in its turn. -/
  allowed : Nat := allowance
  /-- Who used up a turn, the last one first.  Nobody wakes them before the end of the round. -/
  spent : List Party := []

namespace World

variable {σ : Type}

/-- The running clock. -/
def instant (w : World σ) : Instant := .ofTick w.ticks

/-- The time of day. -/
def now (s : Setup σ) (w : World σ) : Millis :=
  if s.followsTime then clamp (w.clock.toInt + w.ticks) else w.clock

/-- Asks the store, which may be refusing. -/
def ask (s : Setup σ) (r : Request) (w : World σ) : Except Failure r.Answer × World σ :=
  let (a, store) := (s.store.refusing w.refused).ask (w.now s) r w.store
  (a, { w with store := store })

/-! ## Steps that take no time -/

/-- Gives the next id to a request for a new job; an id that reaches the store is used up. -/
def withId (s : Setup σ) (w : World σ)
    (run : Store σ → Millis → String → σ → Except Failure Job × σ)
    (reaches : Bool) : Except Failure Job × World σ :=
  let (a, store) := run (s.store.refusing w.refused) (w.now s) w.ids.next w.store
  let reaches := reaches && !w.refused.contains "enqueue"
  (a, { w with store := store, ids := if reaches then w.ids.advance else w.ids })

/-- Makes a step on the store or the clock. -/
def queueStep (s : Setup σ) (w : World σ) : QueueStep → Except Failure Answer × World σ
  | .now => (.ok (.time (w.now s)), w)
  | .advance d =>
    let w := { w with clock := addClamped w.clock d.toMillis }
    (.ok (.time (w.now s)), w)
  | .setClock time =>
    let w := { w with clock := time }
    (.ok (.time (w.now s)), w)
  | .enqueue sub =>
    let (a, w) := w.withId s (fun store now id => store.ask now (.enqueue id sub)) true
    (a.map fun j => .job (some j), w)
  | .produce sub =>
    let (a, w) := w.withId s (fun store now id => submit store now id sub) sub.check.isOk
    (a.map fun j => .job (some j), w)
  | .ask r =>
    let (a, w) := w.ask s r
    (a.map (Answer.ofReply r), w)
  | .failPair id message₁ message₂ =>
    if w.refused.contains "fail" then
      let refusal : Except Failure Unit := .error (.error (.database (.injected "fail")))
      (.ok (.pair refusal refusal), w)
    else
      let (a, b, store) := s.failPair (w.now s) id message₁ message₂ w.store
      (.ok (.pair a b), { w with store := store })
  | .ids filter =>
    let (a, w) := w.ask s (.list filter)
    (a.map fun l => .ids (l.map (·.id)), w)
  | .recover window =>
    let (a, store) := recover (s.store.refusing w.refused) (w.now s)
      (window.getD defaultRecoveryWindow) w.store
    (a.map .count, { w with store := store })
  | .cleanUp retention =>
    let (a, store) := cleanUp (s.store.refusing w.refused) (w.now s) retention w.store
    (a.map .count, { w with store := store })
  | .refuse operations => (.ok .nothing, { w with refused := operations })
  | .reject why => (.error why, w)

/-! ## Tasks -/

/-- Adds a task, whose turn comes after those that are ready. -/
def spawn (task : Task) (w : World σ) : World σ :=
  { w with
    tasks := w.tasks.put w.nextTask task
    nextTask := w.nextTask + 1
    ready := w.ready ++ [w.nextTask] }

/-- Wakes the scenario or a task: it gets a turn, if it has none yet. -/
def wake (p : Party) (w : World σ) : World σ :=
  if w.spent.contains p then w
  else match p with
    | .scenario => { w with woken := true }
    | .task id => if w.ready.contains id then w else { w with ready := w.ready ++ [id] }

/-- A party ends its turn, to get another one in the next round. -/
def giveWay (p : Party) (w : World σ) : World σ := { w with spent := p :: w.spent }

/-- Wakes those who used up a turn. -/
def wakeSpent (w : World σ) : World σ :=
  w.spent.foldl (fun w p => w.wake p) { w with spent := [] }

/-- Sets the alarm of a party; an alarm for the same time keeps its place. -/
def setAlarm (tick : Nat) (p : Party) (w : World σ) : World σ :=
  if w.alarms.contains ⟨tick, p⟩ then w
  else { w with alarms := w.alarms.filter (·.party ≠ p) ++ [⟨tick, p⟩] }

/-- Ends a task. -/
def endTask (id : Nat) (w : World σ) : World σ :=
  { w with
    tasks := w.tasks.erase id
    alarms := w.alarms.filter (·.party ≠ .task id) }

def setTask (id : Nat) (task : Task) (w : World σ) : World σ :=
  { w with tasks := w.tasks.put id task }

/-- Was a generation of workers told to stop, by its pool or from outside? -/
def isStopped (w : World σ) (generation : Nat) : Bool :=
  w.parent.sent || w.signals[generation]?.any (·.sent)

/-- Wakes the tasks that wait for a tick and listen to the signal from outside. -/
def wakeListeners (w : World σ) : World σ :=
  let idle (t : Task) : Bool :=
    match t with
    | .loop _ none => true
    | .cleanup _ => true
    | _ => false
  (w.tasks.filter fun t => idle t.2).foldl (fun w t => w.wake (.task t.1)) w

/-- Wakes the workers of a generation that wait for a tick. -/
def wakeGeneration (generation : Nat) (w : World σ) : World σ :=
  let idle (t : Task) : Bool :=
    match t with
    | .loop l none => l.generation == generation
    | _ => false
  (w.tasks.filter fun t => idle t.2).foldl (fun w t => w.wake (.task t.1)) w

/-- Tells the workers of the last start to stop. -/
def signalPool (w : World σ) : World σ :=
  let last := w.signals.length - 1
  { w with signals := w.signals.modify last Signal.send }.wakeGeneration last

end World

end JobQueue.Simulation
