/-
  Jobs with the rank of their insertion.

  Two jobs can be created in the same millisecond; the rank, which grows with
  every insertion, then tells which of them came first.  Jobs are handed out
  by priority, the higher first, then by age, and listed with the newest
  first.
-/
import JobQueue.Job.Basic

namespace JobQueue

/-- A stored job and the rank of its insertion. -/
structure Ranked where
  rank : Nat
  job : Job
  deriving DecidableEq, Repr, Inhabited

namespace Ranked

/-- Is `a` handed out before `b`? -/
def isBefore (a b : Ranked) : Bool :=
  if a.job.priority ≠ b.job.priority then b.job.priority < a.job.priority
  else if a.job.createdAt ≠ b.job.createdAt then a.job.createdAt < b.job.createdAt
  else a.rank < b.rank

/-- Is `a` listed before `b`, or are they listed at the same place? -/
def isNewer (a b : Ranked) : Bool :=
  if a.job.createdAt ≠ b.job.createdAt then b.job.createdAt < a.job.createdAt
  else b.rank ≤ a.rank

/-- Of a list, the element that comes before all others. -/
def first? : List Ranked → Option Ranked
  | [] => none
  | a :: l =>
    match first? l with
    | none => some a
    | some b => if b.isBefore a then some b else some a

/-- A list, the newest first. -/
def newestFirst (l : List Ranked) : List Ranked := l.mergeSort isNewer

end Ranked

end JobQueue
