/-
  Handlers by the type of the jobs they run.
-/
import JobQueue.Store.Keyed

namespace JobQueue

/-- Handlers, each under a job type. -/
structure Registry (η : Type) where
  handlers : Keyed String η := []
  deriving DecidableEq, Repr, Inhabited

namespace Registry

variable {η : Type}

def empty : Registry η := {}

/-- Puts a handler in charge of a type, in place of an earlier one. -/
def register (r : Registry η) (type : String) (handler : η) : Registry η :=
  ⟨r.handlers.put type handler⟩

/-- The handler in charge of a type. -/
def find? (r : Registry η) (type : String) : Option η := r.handlers.get? type

/-- The number of types with a handler. -/
def size (r : Registry η) : Nat := r.handlers.length

def isEmpty (r : Registry η) : Bool := r.handlers.isEmpty

end Registry

end JobQueue
