/-
  Reading past a JSON value without looking at it.

  A skipped value may be nested to any depth, its numbers may be too large for
  a double, and its strings may hold lone surrogates; otherwise the rules for
  values hold.
-/
import JobQueue.Json.Number
import JobQueue.Json.Token

namespace JobQueue.Json

/-- Skips digits. -/
def skipDigits (s : Bytes) : Bytes := (Numeral.skipDigits 0 s).2

/-- Skips the part of a number behind the letter of its exponent. -/
def skipExponent (s : Bytes) : Except Fault Bytes :=
  let s := match s with
    | 43 :: s => s
    | 45 :: s => s
    | s => s
  match s with
  | [] => .error (.before .invalidNumber [])
  | b :: s =>
    if (Numeral.digit? b).isSome then .ok (skipDigits s)
    else .error (.before .invalidNumber s)

/-- Skips an exponent, if there is one. -/
def skipScale (s : Bytes) : Except Fault Bytes :=
  match s with
  | 101 :: s => skipExponent s
  | 69 :: s => skipExponent s
  | s => .ok s

/-- Skips a number whose sign has been read. -/
def skipUnsigned (s : Bytes) : Except Fault Bytes :=
  let tail (s : Bytes) : Except Fault Bytes :=
    match s with
    | 46 :: s =>
      if Numeral.startsWithDigit s then skipScale (skipDigits s)
      else .error (.on .invalidNumber s)
    | s => skipScale s
  match s with
  | [] => .error (.before .invalidNumber [])
  | 48 :: s => if Numeral.startsWithDigit s then .error (.on .invalidNumber s) else tail s
  | b :: s =>
    if (Numeral.digit? b).isSome then tail (skipDigits s)
    else .error (.before .invalidNumber s)

/-- Skips one member of an object behind its key. -/
def skipMember (value : Bytes → Except Fault Bytes) (s : Bytes) : Except Fault Bytes :=
  match skipSpace s with
  | [] => .error (.on .eofObject [])
  | b :: s => if b = 58 then value s else .error (.on .expectedColon (b :: s))

/-- Skips the items of a list up to its closing bracket; at most `bound` of them. -/
def skipItems (value : Bytes → Except Fault Bytes) : Nat → Bool → Bytes → Except Fault Bytes
  | 0, _, s => .error (.on .eofList s)
  | bound + 1, first, s =>
    match skipSpace s with
    | [] => .error (.on .eofList [])
    | b :: s =>
      if b = 93 then .ok s
      else if first then
        match value (b :: s) with
        | .error f => .error f
        | .ok s => skipItems value bound false s
      else if b = 44 then
        match value s with
        | .error f => .error f
        | .ok s => skipItems value bound false s
      else .error (.on .expectedListEnd (b :: s))

/-- Skips a key and its value. -/
def skipPair (value : Bytes → Except Fault Bytes) (s : Bytes) : Except Fault Bytes :=
  match skipSpace s with
  | [] => .error (.on .eofObject [])
  | b :: s =>
    if b = 34 then
      match Text.skipBody s with
      | .error f => .error f
      | .ok s => skipMember value s
    else .error (.on .keyNotString (b :: s))

/-- Skips the members of an object up to its closing brace; at most `bound` of them. -/
def skipMembers (value : Bytes → Except Fault Bytes) : Nat → Bool → Bytes → Except Fault Bytes
  | 0, _, s => .error (.on .eofObject s)
  | bound + 1, first, s =>
    match skipSpace s with
    | [] => .error (.on .eofObject [])
    | b :: s =>
      if b = 125 then .ok s
      else if first then
        match skipPair value (b :: s) with
        | .error f => .error f
        | .ok s => skipMembers value bound false s
      else if b = 44 then
        match skipPair value s with
        | .error f => .error f
        | .ok s => skipMembers value bound false s
      else .error (.on .expectedObjectEnd (b :: s))

/-- Skips a value that is nested at most `depth` deep. -/
def skipNested (depth : Nat) (s : Bytes) : Except Fault Bytes :=
  match skipSpace s with
  | [] => .error (.on .eofValue [])
  | b :: s =>
    if b = 110 then readWord nullTail s
    else if b = 116 then readWord trueTail s
    else if b = 102 then readWord falseTail s
    else if b = 34 then Text.skipBody s
    else if b = 91 then
      match depth with
      | 0 => .error (.on .eofList [])
      | depth + 1 => skipItems (skipNested depth) (s.length + 1) true s
    else if b = 123 then
      match depth with
      | 0 => .error (.on .eofObject [])
      | depth + 1 => skipMembers (skipNested depth) (s.length + 1) true s
    else if b = 45 then skipUnsigned s
    else if (Numeral.digit? b).isSome then skipUnsigned (b :: s)
    else .error (.on .expectedValue (b :: s))

/-- Skips a value: a text cannot be nested deeper than it is long. -/
def skipValue (s : Bytes) : Except Fault Bytes := skipNested (s.length + 1) s

end JobQueue.Json
