/-
  Which jobs a listing shows, and which queues a worker serves.
-/
import JobQueue.Job.Basic

namespace JobQueue

/-- A filter for listings: every field that is set has to agree, and of the jobs that match a
    page is shown. -/
structure Filter where
  queue : Option String := none
  type : Option String := none
  org : Option String := none
  status : Option Status := none
  limit : Option Int64 := none
  offset : Int64 := 0
  deriving DecidableEq, Repr, Inhabited

namespace Filter

/-- The length of the page; a negative limit is an empty page. -/
def pageLimit (f : Filter) : Option Int64 := f.limit.map fun l => if l < 0 then 0 else l

/-- The jobs before the page; a negative offset skips none. -/
def pageOffset (f : Filter) : Int64 := if f.offset < 0 then 0 else f.offset

/-- Does the job agree with every field that is set? -/
def accepts (f : Filter) (j : Job) : Bool :=
  f.queue.all (· == j.queue) && f.type.all (· == j.type) && f.org.all (· == j.org) &&
    f.status.all (· == j.status)

/-- The page of a listing. -/
def page {α : Type} (f : Filter) (xs : List α) : List α :=
  let rest := xs.drop f.pageOffset.toInt.toNat
  match f.pageLimit with
  | none => rest
  | some l => rest.take l.toInt.toNat

end Filter

/-- The queues that a worker serves; an empty list stands for every queue. -/
structure QueueSet where
  names : List String
  deriving DecidableEq, Repr, Inhabited

namespace QueueSet

/-- Every queue. -/
def any : QueueSet := ⟨[]⟩

/-- Is the queue served? -/
def accepts (q : QueueSet) (name : String) : Bool := q.names.isEmpty || q.names.contains name

end QueueSet

end JobQueue
