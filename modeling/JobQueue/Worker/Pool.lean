/-
  The life of a worker pool.

      stopped -> running -> stopping -> stopped

  A start spawns a generation of worker loops, a stop hands them over to a
  drain, and the pool is stopped again when the drain has seen the last of
  them end.  A loop ends by itself when it is told to stop, and also when its
  worker breaks off.
-/
import JobQueue.Error

namespace JobQueue

/-- Whether a pool runs. -/
inductive PoolStatus where
  | stopped
  | running
  | stopping
  deriving DecidableEq, Repr, Inhabited

def PoolStatus.name : PoolStatus → String
  | stopped => "stopped"
  | running => "running"
  | stopping => "stopping"

/-- A pool of workers.  The loops are numbered in the order of their start. -/
structure Pool where
  status : PoolStatus := .stopped
  /-- The number of the next loop. -/
  nextLoop : Nat := 0
  /-- The loops that are the business of the pool: those of the last start, until a stop. -/
  loops : List Nat := []
  /-- The drains under way, each with the loops that it waits for. -/
  drains : List (List Nat) := []
  /-- The loops that have not ended. -/
  alive : List Nat := []
  deriving DecidableEq, Repr, Inhabited

namespace Pool

/-- Starts `count` loops, and names them.  Only a stopped pool can be started, and only with a
    beat that is not zero. -/
def start (interval : Span) (count : Nat) (p : Pool) : Except Error (List Nat) × Pool :=
  if p.status ≠ .stopped then (.error .alreadyRunning, p)
  else if interval = .zero then (.error (.config .zeroPollInterval), p)
  else
    let new := List.range' p.nextLoop count
    (.ok new, { p with
      status := .running
      nextLoop := p.nextLoop + count
      loops := new
      alive := p.alive ++ new })

/-- Hands the loops over to a drain.  Only a running pool can be stopped. -/
def stop (p : Pool) : Except Error Unit × Pool :=
  if p.status ≠ .running then (.error .notRunning, p)
  else (.ok (), { p with status := .stopping, loops := [], drains := p.drains ++ [p.loops] })

/-- A loop ends. -/
def loopEnds (loop : Nat) (p : Pool) : Pool := { p with alive := p.alive.filter (· ≠ loop) }

/-- Has a drain nothing left to wait for? -/
def isDrained (p : Pool) (drain : List Nat) : Bool := drain.all fun l => !p.alive.contains l

/-- Ends the drains that have nothing left to wait for; the pool is stopped when one ends. -/
def settle (p : Pool) : Pool :=
  if p.drains.any p.isDrained then
    { p with status := .stopped, drains := p.drains.filter fun d => !p.isDrained d }
  else p

/-- The name under which a loop claims jobs. -/
def workerName (label pool : String) (n : Nat) : String :=
  label ++ "-" ++ pool ++ "-" ++ toString n

end Pool

end JobQueue
