/-
  The life of a job.

      pending -> processing -> completed
                     |
                     +-> pending   (tried again later)
                     +-> failed    (attempts used up)
-/

namespace JobQueue

/-- Where a job is in its life. -/
inductive Status where
  | pending
  | processing
  | completed
  | failed
  deriving DecidableEq, Repr, Inhabited

namespace Status

/-- The written form of a status. -/
def name : Status → String
  | pending => "pending"
  | processing => "processing"
  | completed => "completed"
  | failed => "failed"

/-- The status with a given written form. -/
def ofName? (s : String) : Option Status :=
  if s = "pending" then some pending
  else if s = "processing" then some processing
  else if s = "completed" then some completed
  else if s = "failed" then some failed
  else none

/-- A finished job never changes again. -/
def isTerminal : Status → Bool
  | completed | failed => true
  | pending | processing => false

theorem ofName?_name (s : Status) : ofName? s.name = some s := by
  cases s <;> decide

end Status

end JobQueue
