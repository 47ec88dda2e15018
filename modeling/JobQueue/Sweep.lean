/-
  The two sweeps over the jobs of a store.

  After a crash, `recover` puts the jobs back that have been in processing for
  longer than a window; `cleanUp` forgets the jobs that were finished longer
  ago than they are to be kept.
-/
import JobQueue.Store.Request

namespace JobQueue

/-- The point of the clock that lies a span before now, or the first point of the clock. -/
def cutoff (now : Millis) (d : Span) : Millis := subClamped now d.toMillis

/-- How long a job may be in processing before it counts as lost: five minutes. -/
def defaultRecoveryWindow : Span := .ofSecs (5 * 60)

variable {σ : Type}

/-- Puts the jobs back that were lost, and counts them. -/
def recover (store : Store σ) (now : Millis) (window : Span) (s : σ) : Except Failure Nat × σ :=
  store.ask now (.requeueStale (cutoff now window)) s

/-- Forgets the jobs that were kept long enough, and counts them. -/
def cleanUp (store : Store σ) (now : Millis) (retention : Span) (s : σ) :
    Except Failure Nat × σ :=
  store.ask now (.purge (cutoff now retention)) s

end JobQueue
