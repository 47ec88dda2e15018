/-
  Paths.

  A place in the tree of files is the list of the names that lead to it from
  the root.  A path is a text with slashes between its names, from the root if
  it begins with a slash and from a working directory otherwise.  Its ancestors
  are what is left when names are taken from its end one after another; slashes
  and single dots at an end do not count as names.
-/
import JobQueue.Text.Blank

namespace JobQueue

/-- A place in the tree of files. -/
abbrev Place := List String

namespace Place

/-- Goes one name further. -/
def step (p : Place) (name : String) : Place :=
  if name = "" ∨ name = "." then p else if name = ".." then p.dropLast else p ++ [name]

/-- Where a path begins. -/
def start (workingDirectory : Place) (path : String) : Place :=
  if Text.hasStart "/" path then [] else workingDirectory

/-- The place that a path names, from a working directory. -/
def ofPath (workingDirectory : Place) (path : String) : Place :=
  (Text.split '/' path).foldl step (start workingDirectory path)

/-- The path to a place from the root. -/
def path (p : Place) : String := "/" ++ "/".intercalate p

end Place

namespace Path

/-- What stands before the last slash and behind it; everything is behind it if there is none. -/
def splitLast (cs : List Char) : List Char × List Char :=
  let r := cs.reverse
  (((r.dropWhile (· ≠ '/')).drop 1).reverse, (r.takeWhile (· ≠ '/')).reverse)

/-- Drops slashes and single dots at the end, at most `bound` of them. -/
def trimEnd : Nat → List Char → List Char
  | 0, cs => cs
  | bound + 1, cs =>
    let (before, name) := splitLast cs
    if cs.isEmpty then []
    else if name = [] ∨ name = ['.'] then trimEnd bound before
    else cs

/-- A slash or a single dot at the front, and what follows. -/
def splitHead : List Char → List Char × List Char
  | '/' :: cs => (['/'], cs)
  | ['.'] => (['.'], [])
  | '.' :: '/' :: cs => (['.'], '/' :: cs)
  | cs => ([], cs)

/-- The path without its last name; the root and the empty path are in nothing. -/
def parent? (path : String) : Option String :=
  let (head, body) := splitHead path.toList
  let body := trimEnd body.length body
  if body.isEmpty then if head = ['.'] then some "" else none
  else
    let before := (splitLast body).1
    some (String.ofList (head ++ trimEnd before.length before))

/-- The path and the paths that it is in, up to the root or to the empty path, which is left out;
    at most `bound` of them. -/
def ancestorsUpTo : Nat → String → List String
  | 0, _ => []
  | bound + 1, path =>
    if path.isEmpty then []
    else path :: match parent? path with
      | none => []
      | some p => ancestorsUpTo bound p

/-- The path and the paths that it is in. -/
def ancestors (path : String) : List String := ancestorsUpTo (path.length + 1) path

end Path

end JobQueue
