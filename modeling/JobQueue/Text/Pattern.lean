/-
  Patterns that texts can be compared with, as far as they can be read.

  A pattern has alternatives with a `|` between them.  In an alternative stand
  characters, escapes, classes in brackets and groups in parentheses, one
  behind the other, and a `?`, `*` or `+` behind what can be missing or
  repeated.  Flags at the beginning of a group, or in parentheses of their
  own, change how the rest of it is read.

  There are no tables of Unicode.  Kinds of characters such as digits, the
  ends of words and the two cases of letters can be asked for only in a part
  that speaks of bytes, and such a part may not stand for bytes that are no
  text.  Counted repetition, look-around and back references do not exist.
-/
import JobQueue.Text.Alphanumeric
import JobQueue.Text.Blank
import JobQueue.Text.Percent

namespace JobQueue.Pattern

/-! ## Flags -/

/-- How a part of a pattern is read. -/
structure Mode where
  /-- Do letters stand for both cases? -/
  caseless : Bool := false
  /-- Does the part speak of characters, and not of bytes? -/
  unicode : Bool := true
  /-- Do blanks and comments not count? -/
  spaced : Bool := false
  deriving DecidableEq, Repr

namespace Mode

/-- Sets a flag. -/
def set (m : Mode) (flag : Char) (on : Bool) : Mode :=
  match flag with
  | 'i' => { m with caseless := on }
  | 'u' => { m with unicode := on }
  | 'x' => { m with spaced := on }
  | _ => m

/-- Are the two cases of letters asked for where no table has them? -/
def needsCases (m : Mode) : Bool := m.caseless && m.unicode

end Mode

/-- The letters of the flags. -/
def flags : List Char := ['i', 'm', 's', 'U', 'u', 'R', 'x']

/-- A text without the blanks and comments at its beginning. -/
def dropBlanks (inComment : Bool) : List Char → List Char
  | [] => []
  | c :: cs =>
    if inComment then dropBlanks (c ≠ '\n') cs
    else if c = '#' then dropBlanks true cs
    else if isBlank c then dropBlanks false cs
    else c :: cs

/-- What is left of a text when what does not count at its beginning is dropped. -/
def Mode.skip (m : Mode) (cs : List Char) : List Char :=
  if m.spaced then dropBlanks false cs else cs

/-- Reads flags up to a colon or a closing parenthesis; those behind a minus sign are taken away.
    `seen` are the signs before, the last one first: none may come twice. -/
def readFlags (m : Mode) (seen : List Char) : List Char → Option (Mode × List Char)
  | [] => none
  | c :: cs =>
    if c = ':' ∨ c = ')' then if seen.head? = some '-' then none else some (m, c :: cs)
    else if seen.contains c then none
    else if c = '-' ∨ c ∈ flags then readFlags (m.set c (!seen.contains '-')) (c :: seen) cs
    else none

/-! ## Groups -/

/-- May a group have the name? -/
def isName : List Char → Bool
  | [] => false
  | c :: cs =>
    (c == '_' || (Text.isAlphanumeric c && !c.isDigit)) &&
      cs.all fun c => c ∈ ['_', '.', '[', ']'] || Text.isAlphanumeric c

/-- What an opening parenthesis begins. -/
inductive Opening where
  /-- Flags for the rest of the group that it stands in. -/
  | flags (m : Mode)
  | group (m : Mode)
  | named (name : List Char)

/-- Reads what follows an opening parenthesis. -/
def readOpening (m : Mode) (cs : List Char) : Option (Opening × List Char) :=
  let readName (cs : List Char) : Option (Opening × List Char) :=
    let name := cs.takeWhile (· ≠ '>')
    if isName name ∧ name.length < cs.length then some (.named name, cs.drop (name.length + 1))
    else none
  match m.skip cs with
  | '?' :: 'P' :: '<' :: cs => readName cs
  | '?' :: '<' :: cs => readName cs
  | '?' :: ')' :: _ => none
  | '?' :: cs =>
    (readFlags m [] cs).map fun (inner, rest) =>
      (if rest.head? = some ')' then .flags inner else .group inner, rest.drop 1)
  | cs => some (.group m, cs)

/-! ## Escapes -/

/-- What an escape stands for. -/
inductive Escaped where
  | character (c : Char)
  /-- A kind of characters. -/
  | kind
  /-- A place between characters. -/
  | place

/-- Reads `count` hexadecimal digits behind the value `acc`. -/
def readCode (m : Mode) : (count : Nat) → (acc : Nat) → List Char → Option (Nat × List Char)
  | 0, acc, cs => some (acc, cs)
  | count + 1, acc, cs =>
    match m.skip cs with
    | [] => none
    | c :: cs =>
      if c.toNat < 128 then
        (Percent.hexDigit? c.toNat.toUInt8).bind fun d => readCode m count (acc * 16 + d.toNat) cs
      else none

/-- Reads what follows a backslash. -/
def readEscape (m : Mode) : List Char → Option (Escaped × List Char)
  | [] => none
  | c :: cs =>
    let code (digits : Nat) : Option (Escaped × List Char) :=
      (readCode m digits 0 cs).bind fun (n, rest) =>
        if n.isValidChar ∧ (m.unicode ∨ n < 128 ∨ digits ≠ 2) then
          some (.character (Char.ofNat n), rest)
        else none
    if c = 'x' then code 2
    else if c = 'u' then code 4
    else if c = 'U' then code 8
    else if c ∈ ['d', 's', 'w'] then if m.unicode then none else some (.kind, cs)
    else if c ∈ ['b', 'B', '<', '>'] then if m.unicode then none else some (.place, cs)
    else if c ∈ ['A', 'z'] then some (.place, cs)
    else
      match ['a', 't', 'n', 'v', 'f', 'r'].idxOf? c with
      | some i => some (.character (Char.ofNat ([7, 9, 10, 11, 12, 13].getD i 0)), cs)
      | none =>
        if c.toNat < 128 ∧ !c.isAlphanum then some (.character c, cs) else none

/-! ## Classes -/

/-- The names of the classes that stand between colons. -/
def classNames : List String :=
  ["alnum", "alpha", "ascii", "blank", "cntrl", "digit", "graph", "lower", "print", "punct",
    "space", "upper", "word", "xdigit"]

/-- What follows a named class behind its opening bracket, if there is one. -/
def readNamed? : List Char → Option (List Char)
  | ':' :: cs =>
    let cs := if cs.head? = some '^' then cs.drop 1 else cs
    let name := cs.takeWhile (· ≠ ':')
    match cs.drop name.length with
    | ':' :: ']' :: rest => if classNames.contains (String.ofList name) then some rest else none
    | _ => none
  | _ => none

/-- Reads a member of a class: a character, or nothing for a kind of characters. -/
def readMember (m : Mode) : List Char → Option (Option Char × List Char)
  | [] => none
  | '\\' :: cs =>
    match readEscape m cs with
    | some (.character c, rest) => if m.unicode ∨ c.toNat < 128 then some (some c, rest) else none
    | some (.kind, rest) => some (none, rest)
    | _ => none
  | c :: cs => if m.unicode ∨ c.toNat < 128 then some (some c, cs) else none

/-- Reads a member of a class, or a range from one character to another that is not before it. -/
def readRange (m : Mode) (cs : List Char) : Option (List Char) :=
  (readMember m cs).bind fun (a, rest) =>
    let rest := m.skip rest
    match rest with
    | '-' :: more =>
      match m.skip more with
      | ']' :: _ | '-' :: _ => some rest
      | more =>
        (readMember m more).bind fun (b, rest) =>
          match a, b with
          | some a, some b => if a ≤ b then some rest else none
          | _, _ => none
    | rest => some rest

/-- Drops the sign that a class is to stand for all other characters. -/
def dropNegation (m : Mode) (cs : List Char) : Option (List Char) :=
  match m.skip cs with
  | '^' :: cs => if m.unicode then some cs else none
  | cs => some cs

/-- Where in a class something stands: at its beginning, behind dashes at its beginning, or
    further inside. -/
inductive ClassPlace where
  | first
  | dashes
  | inside

/-- Reads the rest of a class that is inside `depth` others, with the rest of those. -/
def readClass (m : Mode) :
    (fuel : Nat) → (depth : Nat) → ClassPlace → List Char → Option (List Char)
  | 0, _, _, _ => none
  | fuel + 1, depth, place, cs =>
    match place, m.skip cs with
    | _, [] => none
    | .first, '-' :: cs => readClass m fuel depth .dashes cs
    | .dashes, '-' :: cs => readClass m fuel depth .dashes cs
    | .first, ']' :: cs => readClass m fuel depth .inside cs
    | _, ']' :: cs => if depth = 0 then some cs else readClass m fuel (depth - 1) .inside cs
    | _, '[' :: cs =>
      match readNamed? cs with
      | some rest => readClass m fuel depth .inside rest
      | none => (dropNegation m cs).bind fun cs => readClass m fuel (depth + 1) .first cs
    | _, '&' :: '&' :: cs => readClass m fuel depth .inside cs
    | _, '-' :: '-' :: cs => readClass m fuel depth .inside cs
    | _, '~' :: '~' :: cs => readClass m fuel depth .inside cs
    | _, cs => (readRange m cs).bind fun cs => readClass m fuel depth .inside cs

/-! ## Patterns -/

/-- How far a pattern was read. -/
structure Progress where
  mode : Mode := {}
  /-- How the groups around are read, the innermost first. -/
  opened : List Mode := []
  /-- The names of groups. -/
  names : List (List Char) := []
  /-- Did something come just before that can be repeated? -/
  canRepeat : Bool := false

/-- Can the rest of a pattern be read? -/
def read : (fuel : Nat) → Progress → List Char → Bool
  | 0, _, _ => false
  | fuel + 1, p, cs =>
    let on (cs : List Char) : Bool := read fuel { p with canRepeat := true } cs
    match p.mode.skip cs with
    | [] => p.opened.isEmpty
    | '(' :: cs =>
      match readOpening p.mode cs with
      | none => false
      | some (.flags m, rest) => read fuel { p with mode := m, canRepeat := false } rest
      | some (.group m, rest) =>
        read fuel { p with mode := m, opened := p.mode :: p.opened, canRepeat := false } rest
      | some (.named name, rest) =>
        !p.names.contains name &&
          read fuel { p with
            opened := p.mode :: p.opened, names := name :: p.names, canRepeat := false } rest
    | ')' :: cs =>
      match p.opened with
      | [] => false
      | m :: opened => read fuel { p with mode := m, opened := opened, canRepeat := true } cs
    | '|' :: cs => read fuel { p with canRepeat := false } cs
    | '[' :: cs =>
      !p.mode.needsCases &&
        match (dropNegation p.mode cs).bind (readClass p.mode fuel 0 .first) with
        | none => false
        | some rest => on rest
    | '\x7b' :: _ => false
    | '\\' :: cs =>
      match readEscape p.mode cs with
      | none => false
      | some (.character _, rest) => !p.mode.needsCases && on rest
      | some (_, rest) => on rest
    | '.' :: cs => p.mode.unicode && on cs
    | c :: cs =>
      if c = '?' ∨ c = '*' ∨ c = '+' then
        p.canRepeat && on (if cs.head? = some '?' then cs.drop 1 else cs)
      else if c = '^' ∨ c = '$' then on cs
      else !p.mode.needsCases && on cs

/-- Can a pattern be read? -/
def isReadable (cs : List Char) : Bool := read (cs.length + 1) {} cs

end JobQueue.Pattern
