/-
  The written record of a job.

  A job is kept as a JSON object with one member for each of its fields.
  Reading a record goes from left to right and stops at the first fault:
  members may come in any order, members with unknown names are skipped, and
  a field that is optional may be missing or null.  The sixteen values may
  also be given as a list, in the order of the fields.
-/
import JobQueue.Job.Basic
import JobQueue.Json.Skip
import JobQueue.Json.Value
import JobQueue.Json.Writer

namespace JobQueue

/-! ## Fields -/

/-- The fields of a record, in their order. -/
inductive Field where
  | id | queue | type | org | payload | priority | scheduledAt | createdAt | status
  | attempts | maxAttempts | startedAt | completedAt | worker | result | error
  deriving DecidableEq, Repr

namespace Field

def all : List Field :=
  [id, queue, type, org, payload, priority, scheduledAt, createdAt, status, attempts,
    maxAttempts, startedAt, completedAt, worker, result, error]

def name : Field → String
  | id => "id"
  | queue => "queue_name"
  | type => "job_type"
  | org => "org_id"
  | payload => "payload"
  | priority => "priority"
  | scheduledAt => "scheduled_at"
  | createdAt => "created_at"
  | status => "status"
  | attempts => "attempt_count"
  | maxAttempts => "max_attempts"
  | startedAt => "started_at"
  | completedAt => "completed_at"
  | worker => "worker_id"
  | result => "result"
  | error => "error_message"

/-- The field with a given name. -/
def ofName? (s : String) : Option Field := all.find? (·.name == s)

end Field

namespace Job.Record

open Json

/-! ## Writing -/

def payloadJson (p : Payload) : Json := .array (p.bytes.map fun b => .integer b.toNat)

def optional {α : Type} (f : α → Json) : Option α → Json
  | none => .null
  | some a => f a

/-- The value of a field of a job. -/
def value (j : Job) : Field → Json
  | .id => .string j.id
  | .queue => .string j.queue
  | .type => .string j.type
  | .org => .string j.org
  | .payload => payloadJson j.payload
  | .priority => .integer j.priority.toInt
  | .scheduledAt => .integer j.scheduledAt.toInt
  | .createdAt => .integer j.createdAt.toInt
  | .status => .string j.status.name
  | .attempts => .integer j.attempts.toInt
  | .maxAttempts => .integer j.maxAttempts.toInt
  | .startedAt => optional (fun t => .integer t.toInt) j.startedAt
  | .completedAt => optional (fun t => .integer t.toInt) j.completedAt
  | .worker => optional .string j.worker
  | .result => optional payloadJson j.result
  | .error => optional .string j.error

/-- The record of a job. -/
def write (j : Job) : Bytes :=
  Json.write (.object (Field.all.map fun f => (f.name, value j f)))

/-! ## Reading values of a given shape -/

/-- The fault of a value that begins with `b :: s` and is not of the wanted shape: a fault of the
    value itself comes first. -/
def mismatch (b : UInt8) (s : Bytes) : Fault :=
  let after {α : Type} (r : Except Fault α) : Fault :=
    match r with
    | .error f => f
    | .ok _ => .before .mismatch s
  if b = 110 then after (readWord nullTail s)
  else if b = 116 then after (readWord trueTail s)
  else if b = 102 then after (readWord falseTail s)
  else if b = 34 then after (Text.readBody s)
  else if b = 91 ∨ b = 123 then .before .mismatch s
  else if b = 45 ∨ (Numeral.digit? b).isSome then after (Numeral.read (b :: s))
  else .on .expectedValue (b :: s)

/-- Reads a string. -/
def readString : Reader String := fun s =>
  match skipSpace s with
  | [] => .error (.on .eofValue [])
  | b :: s => if b = 34 then Text.readBody s else .error (mismatch b s)

/-- Reads a whole number that `fit` accepts. -/
def readWhole {α : Type} (fit : Int → Option α) : Reader α := fun s =>
  match skipSpace s with
  | [] => .error (.on .eofValue [])
  | b :: s =>
    if b = 45 ∨ (Numeral.digit? b).isSome then
      match Numeral.read (b :: s) with
      | .error f => .error f
      | .ok (.real _, s) => .error (.before .mismatch s)
      | .ok (.whole n, s) =>
        match fit n with
        | none => .error (.before .mismatch s)
        | some a => .ok (a, s)
    else .error (mismatch b s)

/-- `n` as a byte, if it is one. -/
def fitByte? (n : Int) : Option UInt8 :=
  if 0 ≤ n ∧ n < 256 then some n.toNat.toUInt8 else none

/-- Reads a list of bytes. -/
def readPayload : Reader Payload := fun s =>
  match skipSpace s with
  | [] => .error (.on .eofValue [])
  | b :: s =>
    if b = 91 then (readList (readWhole fitByte?) s).map fun (bs, s) => (⟨bs⟩, s)
    else .error (mismatch b s)

/-- Reads a value, or null. -/
def readOptional {α : Type} (read : Reader α) : Reader (Option α) := fun s =>
  match skipSpace s with
  | [] => (read []).map fun (a, s) => (some a, s)
  | b :: r =>
    if b = 110 then (readWord nullTail r).map fun s => (none, s)
    else (read (b :: r)).map fun (a, s) => (some a, s)

/-- Reads the name of a status. -/
def readStatusName : Reader Status := fun s =>
  match readString s with
  | .error f => .error f
  | .ok (t, s) =>
    match Status.ofName? t with
    | none => .error (.before .mismatch s)
    | some st => .ok (st, s)

/-- Reads null. -/
def readNull (s : Bytes) : Except Fault Bytes :=
  match skipSpace s with
  | [] => .error (.on .eofValue [])
  | b :: s => if b = 110 then readWord nullTail s else .error (mismatch b s)

/-- Reads a status: its name, or an object that has it as its only key, with the value null. -/
def readStatus : Reader Status := fun s =>
  match skipSpace s with
  | [] => .error (.on .eofValue [])
  | b :: s =>
    if b = 34 then readStatusName (b :: s)
    else if b = 123 then
      match skipSpace s with
      | [] => .error (.on .eofObject [])
      | c :: s =>
        if c ≠ 34 then .error (.on .keyNotString (c :: s))
        else
          match readStatusName (c :: s) with
          | .error f => .error f
          | .ok (st, s) =>
            match colon s with
            | .error f => .error f
            | .ok s =>
              match readNull s with
              | .error f => .error f
              | .ok s =>
                match skipSpace s with
                | [] => .error (.before .eofObject [])
                | d :: r => if d = 125 then .ok (st, r) else .error (.before .expectedValue (d :: r))
    else .error (.on .expectedValue (b :: s))

/-! ## Reading a record -/

/-- The fields read so far. -/
structure Draft where
  id : Option String := none
  queue : Option String := none
  type : Option String := none
  org : Option String := none
  payload : Option Payload := none
  priority : Option Int32 := none
  scheduledAt : Option Millis := none
  createdAt : Option Millis := none
  status : Option Status := none
  attempts : Option Int32 := none
  maxAttempts : Option Int32 := none
  startedAt : Option (Option Millis) := none
  completedAt : Option (Option Millis) := none
  worker : Option (Option String) := none
  result : Option (Option Payload) := none
  error : Option (Option String) := none

namespace Draft

/-- Has the field been read? -/
def has (d : Draft) : Field → Bool
  | .id => d.id.isSome
  | .queue => d.queue.isSome
  | .type => d.type.isSome
  | .org => d.org.isSome
  | .payload => d.payload.isSome
  | .priority => d.priority.isSome
  | .scheduledAt => d.scheduledAt.isSome
  | .createdAt => d.createdAt.isSome
  | .status => d.status.isSome
  | .attempts => d.attempts.isSome
  | .maxAttempts => d.maxAttempts.isSome
  | .startedAt => d.startedAt.isSome
  | .completedAt => d.completedAt.isSome
  | .worker => d.worker.isSome
  | .result => d.result.isSome
  | .error => d.error.isSome

/-- Reads the value of a field. -/
def readField (d : Draft) (f : Field) : Reader Draft := fun s =>
  let put {α : Type} (read : Reader α) (set : α → Draft) : Except Fault (Draft × Bytes) :=
    (read s).map fun (a, s) => (set a, s)
  match f with
  | .id => put readString fun a => { d with id := some a }
  | .queue => put readString fun a => { d with queue := some a }
  | .type => put readString fun a => { d with type := some a }
  | .org => put readString fun a => { d with org := some a }
  | .payload => put readPayload fun a => { d with payload := some a }
  | .priority => put (readWhole fit32?) fun a => { d with priority := some a }
  | .scheduledAt => put (readWhole fit?) fun a => { d with scheduledAt := some a }
  | .createdAt => put (readWhole fit?) fun a => { d with createdAt := some a }
  | .status => put readStatus fun a => { d with status := some a }
  | .attempts => put (readWhole fit32?) fun a => { d with attempts := some a }
  | .maxAttempts => put (readWhole fit32?) fun a => { d with maxAttempts := some a }
  | .startedAt => put (readOptional (readWhole fit?)) fun a => { d with startedAt := some a }
  | .completedAt => put (readOptional (readWhole fit?)) fun a => { d with completedAt := some a }
  | .worker => put (readOptional readString) fun a => { d with worker := some a }
  | .result => put (readOptional readPayload) fun a => { d with result := some a }
  | .error => put (readOptional readString) fun a => { d with error := some a }

/-- The job, if every field that is not optional has been read. -/
def toJob? (d : Draft) : Option Job := do
  let id ← d.id
  let queue ← d.queue
  let type ← d.type
  let org ← d.org
  let payload ← d.payload
  let priority ← d.priority
  let scheduledAt ← d.scheduledAt
  let createdAt ← d.createdAt
  let status ← d.status
  let attempts ← d.attempts
  let maxAttempts ← d.maxAttempts
  return {
    id, queue, type, org, payload, priority, scheduledAt, createdAt, status, attempts,
    maxAttempts
    startedAt := d.startedAt.join
    completedAt := d.completedAt.join
    worker := d.worker.join
    result := d.result.join
    error := d.error.join }

end Draft

/-- Reads one member of a record into the fields read so far. -/
def readMember (key : String) (d : Draft) : Reader Draft := fun s =>
  match Field.ofName? key with
  | some f =>
    if d.has f then .error (.before .mismatch s)
    else match colon s with
      | .error e => .error e
      | .ok s => d.readField f s
  | none =>
    match colon s with
    | .error e => .error e
    | .ok s => (skipValue s).map fun s => (d, s)

/-- Reads members up to the closing brace; at most `bound` of them.  A field that is missing is
    noticed before the brace is taken. -/
def readMembers : Nat → Bool → Draft → Reader Job
  | 0, _, _, s => .error (.on .eofObject s)
  | bound + 1, first, d, s =>
    match nextKey first s with
    | .error f => .error f
    | .ok none =>
      match d.toJob? with
      | none => .error (.before .mismatch s)
      | some j => (endObject s).map fun s => (j, s)
    | .ok (some (key, s)) =>
      match readMember key d s with
      | .error f => .error f
      | .ok (d, s) => readMembers bound false d s

/-- Reads the fields in order from a list, and its closing bracket. -/
def readFields : List Field → Bool → Draft → Reader Job
  | [], _, d, s =>
    match d.toJob? with
    | none => .error (.before .mismatch s)
    | some j => (endList s).map fun s => (j, s)
  | f :: fs, first, d, s =>
    match nextItem first s with
    | .error e => .error e
    | .ok none => .error (.before .mismatch s)
    | .ok (some s) =>
      match d.readField f s with
      | .error e => .error e
      | .ok (d, s) => readFields fs false d s

/-- Reads a record. -/
def readRecord : Reader Job := fun s =>
  match skipSpace s with
  | [] => .error (.on .eofValue [])
  | b :: s =>
    if b = 91 then readFields Field.all true {} s
    else if b = 123 then readMembers (s.length + 1) true {} s
    else .error (mismatch b s)

/-- The job that a text records. -/
def read (s : Bytes) : Except Fault Job := readAll readRecord s

/-- The whole number of 32 bits that a text holds. -/
def readInt32 (s : Bytes) : Except Fault Int32 := readAll (readWhole fit32?) s

end Job.Record

end JobQueue
