/-
  How the workers of a pool are set up.
-/
import JobQueue.Time.Span

namespace JobQueue

/-- The settings of a pool, with what holds where nothing is set. -/
structure PoolSetup where
  workerCount : Nat := 4
  /-- The beat at which each worker looks for jobs. -/
  pollInterval : Span := .ofSecs 1
  /-- How long a handler may take. -/
  jobTimeout : Span := .ofSecs (5 * 60)
  /-- How long a stop waits for the workers. -/
  shutdownTimeout : Span := .ofSecs 30
  /-- The beat of the cleanup. -/
  cleanupInterval : Span := .ofSecs (60 * 60)
  /-- How long finished jobs are kept. -/
  cleanupRetention : Span := .ofSecs (7 * 24 * 60 * 60)
  rateLimiting : Bool := false
  /-- The first part of the names of the workers. -/
  label : String := "worker"
  deriving DecidableEq, Repr, Inhabited

end JobQueue
