/-
  Blank characters and trimming.

  A character is blank when Unicode gives it the property White_Space.
  `trim` drops the blank characters at both ends of a text.
-/

namespace JobQueue

/-- The characters with the Unicode property White_Space. -/
def isBlank (c : Char) : Bool :=
  let n := c.toNat
  (0x09 ≤ n && n ≤ 0x0D) || n == 0x20 || n == 0x85 || n == 0xA0 || n == 0x1680 ||
    (0x2000 ≤ n && n ≤ 0x200A) || n == 0x2028 || n == 0x2029 || n == 0x202F ||
    n == 0x205F || n == 0x3000

namespace Text

/-- A text without the blank characters at its ends. -/
def trimChars (cs : List Char) : List Char :=
  ((cs.dropWhile isBlank).reverse.dropWhile isBlank).reverse

/-- A text without the blank characters at its ends. -/
def trim (s : String) : String := String.ofList (trimChars s.toList)

/-- A text with nothing but blank characters. -/
def allBlank (s : String) : Bool := s.toList.all isBlank

/-- The pieces of a text between the separators `sep`: always one more than there are
    separators. -/
def splitChars (sep : Char) : List Char → List (List Char)
  | [] => [[]]
  | c :: cs =>
    if c = sep then [] :: splitChars sep cs
    else match splitChars sep cs with
      | [] => [[c]]
      | p :: ps => (c :: p) :: ps

/-- The pieces of a text between the separators `sep`. -/
def split (sep : Char) (s : String) : List String :=
  (splitChars sep s.toList).map String.ofList

/-- What follows `p` in a text that begins with `p`. -/
def stripStart? (p s : List Char) : Option (List Char) :=
  match p, s with
  | [], s => some s
  | _ :: _, [] => none
  | a :: p, b :: s => if a = b then stripStart? p s else none

/-- Does the text begin with `p`? -/
def hasStart (p s : String) : Bool := (stripStart? p.toList s.toList).isSome

/-- Does `p` occur somewhere in the text? -/
def occursIn (p : List Char) : List Char → Bool
  | [] => p.isEmpty
  | c :: s => (stripStart? p (c :: s)).isSome || occursIn p s

end Text

end JobQueue
