/-
  What producers call.

  A submission that passes all checks reaches the store; one that does not
  leaves it untouched.
-/
import JobQueue.Json.Writer
import JobQueue.Store.Request

namespace JobQueue

/-- A JSON value as a payload. -/
def Payload.ofJson (v : Json) : Payload := ⟨Json.write v⟩

/-- Submits a job under the name `id`. -/
def submit {σ : Type} (store : Store σ) (now : Millis) (id : String) (sub : Submission) (s : σ) :
    Except Failure Job × σ :=
  match sub.check with
  | .error why => (.error (.error (.validation why)), s)
  | .ok () => store.ask now (.enqueue id sub) s

end JobQueue
