/-
  When a failed attempt is tried again.

  The delay doubles with every attempt, from a base delay and up to an
  optional cap; a job whose attempts are used up is not tried again.  A delay
  is never below one millisecond, so a retry lies strictly after the failure.
-/
import JobQueue.Time.Span

namespace JobQueue

/-- What to do after a failed attempt. -/
inductive RetryDecision where
  /-- Try again after this many milliseconds. -/
  | retry (delay : Millis)
  /-- The attempts are used up. -/
  | failed
  deriving DecidableEq, Repr

/-- How long to wait between attempts. -/
structure RetryPolicy where
  /-- The delay before any doubling, at least one millisecond. -/
  base : Millis
  /-- No delay is longer. -/
  cap : Option Millis
  deriving DecidableEq, Repr

namespace RetryPolicy

/-- One minute. -/
def defaultBase : Millis := 60000

/-- The delay is doubled at most this many times. -/
def maxDoublings : Nat := 30

/-- The larger of a delay and one millisecond. -/
def atLeastOne (d : Millis) : Millis := if d < 1 then 1 else d

/-- A policy without a cap. -/
def ofBase (base : Millis) : RetryPolicy := ⟨atLeastOne base, none⟩

def default : RetryPolicy := ofBase defaultBase

/-- The policy with a cap. -/
def withCap (p : RetryPolicy) (cap : Span) : RetryPolicy :=
  { p with cap := some (atLeastOne cap.toMillis) }

/-- How often the base delay is doubled after `attempts` attempts. -/
def doublings (attempts : Int32) : Nat := min attempts.toInt.toNat maxDoublings

/-- The delay after `attempts` attempts. -/
def backoff (p : RetryPolicy) (attempts : Int32) : Millis :=
  let delay := clamp (p.base.toInt * Nat.pow 2 (doublings attempts))
  match p.cap with
  | none => delay
  | some cap => if delay ≤ cap then delay else cap

/-- Another attempt, or the end. -/
def decide (p : RetryPolicy) (attempts maxAttempts : Int32) : RetryDecision :=
  if maxAttempts ≤ attempts then .failed else .retry (p.backoff attempts)

end RetryPolicy

end JobQueue
