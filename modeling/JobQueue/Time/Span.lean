/-
  Spans of time.

  A span is a whole number of nanoseconds.  `toMillis` is its length on the
  clock of the queue: whole milliseconds, held at the end of the range of the
  clock.  `text` is its short form in messages: the largest unit in which the
  whole part is not zero, and a fraction without closing zeros.
-/
import JobQueue.Number.Word

namespace JobQueue

/-- A point of the queue's clock: milliseconds since the epoch. -/
abbrev Millis := Int64

/-- A span of time, in nanoseconds. -/
structure Span where
  nanos : Nat
  deriving DecidableEq, Repr, Inhabited

namespace Span

def zero : Span := ⟨0⟩
def ofNanos (n : Nat) : Span := ⟨n⟩
def ofMillis (n : Nat) : Span := ⟨n * 1000000⟩
def ofSecs (n : Nat) : Span := ⟨n * 1000000000⟩

/-- Whole seconds. -/
def secs (d : Span) : Nat := d.nanos / 1000000000

/-- Nanoseconds beyond the whole seconds. -/
def subsecNanos (d : Span) : Nat := d.nanos % 1000000000

/-- Whole milliseconds, without an upper end. -/
def wholeMillis (d : Span) : Nat := d.nanos / 1000000

/-- Whole milliseconds on the queue's clock. -/
def toMillis (d : Span) : Millis := clamp d.wholeMillis

/-- Milliseconds, rounded up: the first tick of a millisecond timer that is not too early. -/
def ceilMillis (d : Span) : Nat := (d.nanos + 999999) / 1000000

/-- A fraction of `width` digits without closing zeros, behind a point; empty for zero. -/
def fraction (width : Nat) (n : Nat) : String :=
  if n = 0 then ""
  else
    let ds := toString n
    let padded := String.ofList (List.replicate (width - ds.length) '0') ++ ds
    "." ++ String.ofList (padded.toList.reverse.dropWhile (· == '0')).reverse

/-- The span in words. -/
def text (d : Span) : String :=
  if d.nanos ≥ 1000000000 then
    toString (d.nanos / 1000000000) ++ fraction 9 (d.nanos % 1000000000) ++ "s"
  else if d.nanos ≥ 1000000 then
    toString (d.nanos / 1000000) ++ fraction 6 (d.nanos % 1000000) ++ "ms"
  else if d.nanos ≥ 1000 then
    toString (d.nanos / 1000) ++ fraction 3 (d.nanos % 1000) ++ "µs"
  else toString d.nanos ++ "ns"

end Span

end JobQueue
