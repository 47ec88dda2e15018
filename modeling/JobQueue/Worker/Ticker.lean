/-
  The beat at which a worker looks for jobs.

  The first tick is due at once and every other one a period after the one
  before it.  A tick that is taken late by more than the tolerance moves the
  beat: the next tick is then due a period after it was taken.
-/
import JobQueue.Time.Instant

namespace JobQueue

/-- A beat. -/
structure Ticker where
  period : Span
  /-- When the next tick is due. -/
  due : Instant
  deriving DecidableEq, Repr, Inhabited

namespace Ticker

/-- How late a tick may be taken without moving the beat. -/
def tolerance : Span := .ofMillis 5

/-- A beat whose first tick is due now. -/
def start (period : Span) (now : Instant) : Ticker := ⟨period, now⟩

/-- Is a tick due?  Alarms have the resolution of a millisecond. -/
def isDue (t : Ticker) (now : Nat) : Bool := t.due.tick ≤ now

/-- Takes the tick that is due. -/
def take (t : Ticker) (now : Instant) : Ticker :=
  let base := if t.due.nanos + tolerance.nanos < now.nanos then now else t.due
  { t with due := base.alarm t.period }

end Ticker

end JobQueue
