/-
  A store of any kind.
-/
import JobQueue.Store.Postgres
import JobQueue.Store.Sqlite
import JobQueue.Store.Volatile

namespace JobQueue

/-- The state of a store of one of the three kinds. -/
inductive AnyStore where
  | volatile (s : Volatile)
  | sqlite (c : Connection)
  | postgres (c : Connection)
  deriving DecidableEq, Repr, Inhabited

namespace AnyStore

/-- Answers a request. -/
def ask (rules : Rules) (now : Millis) (r : Request) : (s : AnyStore) → Reply AnyStore r
  | volatile s => (Volatile.ask rules now r s).map id .volatile
  | sqlite c => (Sqlite.ask rules now r c).map id .sqlite
  | postgres c => (Postgres.ask rules now r c).map id .postgres

/-- A store of any kind. -/
def store (rules : Rules) : Store AnyStore := ⟨ask rules⟩

/-- Two reports of a failed attempt under way at the same time. -/
def failTwice (rules : Rules) (now : Millis) (id message₁ message₂ : String) :
    AnyStore → Except Failure Unit × Except Failure Unit × AnyStore
  | volatile s =>
    let (a, b, s) := Volatile.failTwice rules.retry now id message₁ message₂ s
    (a, b, .volatile s)
  | sqlite c =>
    let (a, b, c) := Sqlite.failTwice rules.retry now id message₁ message₂ c
    (a, b, .sqlite c)
  | postgres c =>
    let (a, b, c) := Postgres.failTwice rules.retry now id message₁ message₂ c
    (a, b, .postgres c)

/-- How the kind of store computes a mean duration. -/
def averageRule : AnyStore → AverageRule
  | volatile _ => .rounded
  | sqlite _ => .compensated
  | postgres _ => .decimal

end AnyStore

end JobQueue
