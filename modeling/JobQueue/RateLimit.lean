/-
  How many jobs a tenant may run.

  For every pair of an organization and a queue two numbers are bounded: the
  jobs counted within an hour, and the jobs that are processed at the same
  time.  The hour is a window that opens with the first job counted in it and
  is opened anew, with an empty count, by the first job after its end.
-/
import JobQueue.Time.Span

namespace JobQueue

/-- The length of a window: one hour. -/
def rateWindow : Millis := 3600000

/-- The bounds for one organization on one queue. -/
structure RateLimit where
  perHour : Int64
  concurrent : Int64
  deriving DecidableEq, Repr, Inhabited

namespace RateLimit

def default : RateLimit := ⟨1000, 10⟩

/-- May one more job run?  The job that asks is already among the ones being processed. -/
def admits (l : RateLimit) (inWindow processing : Int64) : Bool :=
  inWindow < l.perHour && processing ≤ l.concurrent

end RateLimit

/-- The jobs counted since the window opened. -/
structure Window where
  start : Millis
  jobs : Int64
  deriving DecidableEq, Repr, Inhabited

namespace Window

/-- A window that opens now. -/
def openAt (now : Millis) : Window := ⟨now, 0⟩

/-- Has the window ended?  Nothing if its age is not representable. -/
def isStale? (w : Window) (now : Millis) : Option Bool :=
  (sub? now w.start).map (rateWindow < ·)

/-- The jobs that count at `now`: none once the window has ended. -/
def counted? (w : Window) (now : Millis) : Option Int64 :=
  (w.isStale? now).map fun stale => if stale then 0 else w.jobs

/-- Counts one job, in a new window if this one has ended. -/
def record? (w : Window) (now : Millis) : Option Window :=
  (w.isStale? now).bind fun stale =>
    if stale then some ⟨now, 1⟩ else (succ? w.jobs).map fun n => { w with jobs := n }

end Window

/-- An organization and a queue. -/
structure Tenant where
  org : String
  queue : String
  deriving DecidableEq, Repr, Inhabited

end JobQueue
