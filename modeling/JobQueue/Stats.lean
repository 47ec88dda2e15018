/-
  What a queue did during the last day.

  The statistics of a queue count its recent jobs by status and keep, for each
  completed one, the times of its claim and of its completion.  The mean of the
  durations is exact; `AverageRule` names the three ways to a double.
-/
import JobQueue.Job.Basic
import JobQueue.Number.Mean

namespace JobQueue

/-- Jobs created earlier than this before now do not count: one day. -/
def statsWindow : Millis := 86400000

/-- The times of the claim and of the completion of a job. -/
structure Run where
  started : Millis
  completed : Millis
  deriving DecidableEq, Repr, Inhabited

namespace Run

/-- How long the job took, in milliseconds. -/
def duration (r : Run) : Int := r.completed.toInt - r.started.toInt

/-- The duration as a term of a sum: a double when it does not fit into 64 bits. -/
def term (r : Run) : Mean.Term :=
  match fit? r.duration with
  | some d => .whole d
  | none => .real (Float.ofInt r.completed.toInt - Float.ofInt r.started.toInt)

end Run

/-- How the mean duration becomes a double. -/
inductive AverageRule where
  | rounded
  | compensated
  | decimal
  deriving DecidableEq, Repr

/-- The statistics of a queue. -/
structure QueueStats where
  queue : String
  pending : Nat
  processing : Nat
  completed : Nat
  failed : Nat
  /-- The times of the completed jobs, in the order in which they are added up. -/
  runs : List Run
  deriving DecidableEq, Repr, Inhabited

namespace QueueStats

/-- The statistics of a queue without recent jobs. -/
def empty (queue : String) : QueueStats := ⟨queue, 0, 0, 0, 0, []⟩

/-- All counted jobs. -/
def total (s : QueueStats) : Nat := s.pending + s.processing + s.completed + s.failed

/-- How long each completed job took. -/
def durations (s : QueueStats) : List Int := s.runs.map Run.duration

/-- The mean duration: its numerator and denominator; nothing without a completed job. -/
def mean? (s : QueueStats) : Option (Int × Nat) :=
  if s.durations.isEmpty then none else some (s.durations.foldr (· + ·) 0, s.durations.length)

/-- The mean duration as a double; nothing without a completed job. -/
def average? (s : QueueStats) (rule : AverageRule) : Option Float :=
  if s.runs.isEmpty then none
  else match rule with
    | .rounded => some (Mean.rounded s.durations)
    | .compensated => some (Mean.compensated (s.runs.map Run.term))
    | .decimal => some (Mean.decimal s.durations)

end QueueStats

end JobQueue
