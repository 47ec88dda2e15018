/-
  Points of the running clock.

  The queue's clock tells the time of day and can be set; the running clock
  only goes forward, from zero, and measures how long things take.  A span
  that would lead beyond the range of the running clock leads to a far future
  instead.

  Alarms are kept in whole milliseconds: an alarm goes off at the first
  millisecond that is not before the instant it was set for.
-/
import JobQueue.Time.Span

namespace JobQueue

/-- A point of the running clock, in nanoseconds since its start. -/
structure Instant where
  nanos : Nat
  deriving DecidableEq, Repr, Inhabited

namespace Instant

def zero : Instant := ⟨0⟩

/-- The beginning of a millisecond. -/
def ofTick (ms : Nat) : Instant := ⟨ms * 1000000⟩

/-- The first millisecond that does not begin before the instant. -/
def tick (i : Instant) : Nat := Span.ceilMillis ⟨i.nanos⟩

/-- The span from an earlier instant to this one; none if it is not earlier. -/
def since (i earlier : Instant) : Span := ⟨i.nanos - earlier.nanos⟩

/-- The instant after a span, if the clock reaches so far: its seconds have 63 bits. -/
def after? (i : Instant) (d : Span) : Option Instant :=
  let later := i.nanos + d.nanos
  if later / 1000000000 + 1 < 0x8000000000000000 then some ⟨later⟩ else none

/-- The instant after a span, or after `far` where the clock does not reach so far. -/
def afterOr (far : Span) (i : Instant) (d : Span) : Instant :=
  (i.after? d).getD ⟨i.nanos + far.nanos⟩

/-- A year of 365 days, in seconds. -/
def yearSecs : Nat := 365 * 24 * 60 * 60

/-- When an alarm that is set for a span from now goes off, at the latest after thirty years if
    the span is too long for the clock. -/
def alarm (now : Instant) (d : Span) : Instant := now.afterOr (.ofSecs (30 * yearSecs)) d

end Instant

end JobQueue
