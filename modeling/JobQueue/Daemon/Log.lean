/-
  Log events, and which of them are written.

  A filter is a list of directives, each a level for the targets that begin
  with a text, or for all targets, and perhaps only for the events that have a
  field.  For an event the directive with the longest text decides; without
  any, the event is dropped.

  A directive is written `target[span{field=value}]=level`, where most parts
  may be missing.  One that asks for a span, or for the value of a field,
  selects no event, since events here are not parts of spans.  The blanks
  around a directive belong to its parts, but the places of the signs between
  the parts are counted, in bytes, from the first character that is not blank;
  where such a place turns out to lie inside a character, reading breaks off.
-/
import JobQueue.Number.Literal
import JobQueue.Text.Alphanumeric
import JobQueue.Text.Blank
import JobQueue.Text.Pattern

namespace JobQueue.Log

/-! ## Events -/

/-- How urgent an event is. -/
inductive Level where
  | error | warn | info | debug | trace
  deriving DecidableEq, Repr, Inhabited

namespace Level

/-- The levels, the most urgent first. -/
def all : List Level := [error, warn, info, debug, trace]

def name : Level → String
  | error => "ERROR"
  | warn => "WARN"
  | info => "INFO"
  | debug => "DEBUG"
  | trace => "TRACE"

/-- How many levels are as urgent. -/
def rank : Level → Nat
  | error => 1
  | warn => 2
  | info => 3
  | debug => 4
  | trace => 5

end Level

/-- What is said in an event besides its message. -/
inductive Value where
  | text (s : String)
  | number (n : Int)
  | flag (b : Bool)
  deriving DecidableEq, Repr

/-- An event. -/
structure Event where
  level : Level
  target : String
  message : String
  fields : List (String × Value) := []
  deriving DecidableEq, Repr

/-- The names of the fields of an event: its message is one of them. -/
def Event.fieldNames (e : Event) : List String := "message" :: e.fields.map (·.1)

/-! ## Directives -/

/-- A directive: events of a target that begins with a text, and that have a certain field, are
    written up to a rank of levels. -/
structure Directive where
  /-- Empty for all targets. -/
  target : List Char
  field : Option (List Char)
  rank : Nat
  deriving DecidableEq, Repr

/-- Why a directive cannot be read. -/
inductive DirectiveFault where
  | unreadable
  /-- A place between two parts lies inside a character. -/
  | brokenCharacter
  deriving DecidableEq, Repr

/-- The rank that a word or a number stands for. -/
def rankOf? (word : List Char) : Option Nat :=
  match Literal.readNat Literal.max64 word with
  | .ok n => if n ≤ 5 then some n else none
  | .error _ =>
    let word := String.ofList (word.map Char.toUpper)
    if word = "OFF" then some 0
    else (Level.all.find? fun l => l.name == word).map Level.rank

/-- May a directive begin with the character? -/
def isFirstChar (c : Char) : Bool := Text.isAlphanumeric c || c ∈ ['-', ':', '_']

/-- How many bytes a text takes. -/
def width (cs : List Char) : Nat := (String.ofList cs).utf8ByteSize

/-- The two parts of a text in front of and behind its byte `n`. -/
def cut (n : Nat) : List Char → Except DirectiveFault (List Char × List Char)
  | [] => .ok ([], [])
  | c :: cs =>
    if n = 0 then .ok ([], c :: cs)
    else if c.utf8Size ≤ n then (cut (n - c.utf8Size) cs).map fun (front, back) => (c :: front, back)
    else .error .brokenCharacter

/-- The part of a text between two places. -/
def part (text : List Char) (start stop : Nat) : Except DirectiveFault (List Char) :=
  (cut start text).bind fun (_, back) => (cut (stop - start) back).map fun (front, _) => front

/-- What a directive says before its level. -/
structure Selection where
  target : List Char := []
  span : Option (List Char) := none
  /-- The name of a field, and its value if one is asked for. -/
  field : Option (List Char × Option (List Char)) := none

/-- A selection with a rank.  Nothing if no event can be selected. -/
def Selection.directive? (s : Selection) (rank : Nat) : Option Directive :=
  match s.span, s.field with
  | none, none => some ⟨s.target, none, rank⟩
  | none, some (name, none) => some ⟨s.target, some name, rank⟩
  | _, _ => none

/-- Reads the level behind a selection; the level begins at the byte `start`. -/
def readLevel (text : List Char) (start : Nat) (s : Selection) :
    Except DirectiveFault (Option Directive) :=
  (cut start text).bind fun (_, level) =>
    if level.isEmpty then .ok (s.directive? Level.trace.rank)
    else match rankOf? level with
      | none => .error .unreadable
      | some rank => .ok (s.directive? rank)

/-- Reads what follows the closing bracket, which ends at the byte `place`. -/
def readEnd (text : List Char) (place : Nat) (s : Selection) : List Char →
    Except DirectiveFault (Option Directive)
  | [] => .ok (s.directive? Level.trace.rank)
  | '=' :: _ => readLevel text (place + 1) s
  | _ => .error .unreadable

/-- Is a text a number behind a sign? -/
def isNumber (cs : List Char) : Bool :=
  let mantissa := cs.takeWhile fun c => c ≠ 'e' && c ≠ 'E'
  let digits := mantissa.filter (· ≠ '.')
  let isPower : List Char → Bool
    | [] => true
    | _ :: p =>
      let p := if p.head? = some '+' ∨ p.head? = some '-' then p.drop 1 else p
      !p.isEmpty && p.all Char.isDigit
  (String.ofList cs).toLower ∈ ["inf", "infinity", "nan"] ||
    (!digits.isEmpty && digits.all Char.isDigit && mantissa.length ≤ digits.length + 1 &&
      isPower (cs.drop mantissa.length))

/-- Can a value be asked for?  It is a pattern, or a number, even with a plus sign. -/
def isValue (cs : List Char) : Bool :=
  Pattern.isReadable cs || (cs.head? == some '+' && isNumber (cs.drop 1))

/-- The name of a field and the value that is asked for. -/
def fieldOf? (cs : List Char) : Option (List Char × Option (List Char)) :=
  match Text.splitChars '=' cs with
  | name :: value :: _ => if isValue value then some (name, some value) else none
  | _ => some (cs, none)

/-- Reads a field whose opening brace ends at the byte `start`. -/
def readField (text : List Char) (start : Nat) (s : Selection) (rest : List Char) :
    Except DirectiveFault (Option Directive) :=
  let inside := rest.takeWhile (· ≠ '\x7d')
  let stop := start + width inside
  match rest.drop inside.length with
  | [] => .error .unreadable
  | _ :: rest =>
    (part text start stop).bind fun field =>
      if field.isEmpty then .error .unreadable
      else match fieldOf? field, rest with
        | some field, ']' :: rest => readEnd text (stop + 2) { s with field := some field } rest
        | _, _ => .error .unreadable

/-- Reads what stands in brackets; the opening one ends at the byte `start`. -/
def readSpan (text : List Char) (start : Nat) (s : Selection) (rest : List Char) :
    Except DirectiveFault (Option Directive) :=
  let name := rest.takeWhile fun c => c ≠ ']' && c ≠ '\x7b'
  let stop := start + width name
  match rest.drop name.length with
  | [] => .error .unreadable
  | c :: rest =>
    (part text start stop).bind fun span =>
      if c = ']' then readEnd text (stop + 1) { s with span := some span } rest
      else readField text (stop + 1) { s with span := if span.isEmpty then none else some span } rest

/-- Reads a directive: a level, a target, or both with what stands between them.  A target alone
    lets everything through.  Nothing if no event can be selected. -/
def readDirective (text : List Char) : Except DirectiveFault (Option Directive) :=
  match Text.trimChars text with
  | [] => .error .unreadable
  | '[' :: rest => readSpan text 1 {} rest
  | c :: rest =>
    if !isFirstChar c then .error .unreadable
    else
      let before := (c :: rest).takeWhile fun c => c ≠ '=' && c ≠ '['
      match (c :: rest).drop before.length with
      | [] =>
        .ok (some (match rankOf? text with
          | some rank => ⟨[], none, rank⟩
          | none => ⟨text, none, Level.trace.rank⟩))
      | sign :: rest =>
        (part text 0 (width before)).bind fun target =>
          if sign = '=' then readLevel text (width before + 1) { target := target }
          else readSpan text (width before + 1) { target := target } rest

namespace Directive

/-- Does the directive say something about an event? -/
def concerns (d : Directive) (e : Event) : Bool :=
  (Text.stripStart? d.target e.target.toList).isSome &&
    d.field.all fun name => e.fieldNames.contains (String.ofList name)

/-- Is `a` at least as particular as `b`?  Of two directives for one target the one with a field
    is more particular, and of two with fields the one whose field comes later in the alphabet. -/
def atLeast (a b : Directive) : Bool :=
  if a.target.length ≠ b.target.length then b.target.length ≤ a.target.length
  else match a.field, b.field with
    | _, none => true
    | none, some _ => false
    | some m, some n => String.ofList n ≤ String.ofList m

end Directive

/-! ## Filters -/

/-- The directives of a filter. -/
abbrev Filter := List Directive

namespace Filter

/-- Reads directives with commas between them; all of them have to be readable. -/
def ofText (text : String) : Except DirectiveFault Filter :=
  (((Text.splitChars ',' text.toList).filter fun d => !d.isEmpty).mapM readDirective).map
    (·.filterMap id)

/-- The filter where none is set. -/
def default : Filter := [⟨"workq".toList, none, Level.info.rank⟩]

/-- The filter of a variable: the default if it is missing or cannot be read.  Nothing if reading
    breaks off. -/
def ofVariable? : Option String → Option Filter
  | none => some default
  | some text =>
    match ofText text with
    | .ok f => some f
    | .error .unreadable => some default
    | .error .brokenCharacter => none

/-- Of the directives for an event, the one that decides: the most particular one, and of two
    that are equally particular the later one. -/
def deciding? (f : Filter) (e : Event) : Option Directive :=
  (f.filter (·.concerns e)).foldl
    (fun best d =>
      match best with
      | none => some d
      | some b => if d.atLeast b then some d else some b) none

/-- Is an event written? -/
def allows (f : Filter) (e : Event) : Bool :=
  (f.deciding? e).any fun d => e.level.rank ≤ d.rank

end Filter

end JobQueue.Log
