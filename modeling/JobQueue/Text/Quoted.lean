/-
  Quoted texts in messages.

  A text is quoted by putting it between double quotes, so that what was read
  can be seen exactly: the quote and the backslash take a backslash, the three
  common controls and the null character have a letter of their own, and every
  other character without a visible form is spelled by its number.
-/
import JobQueue.Text.Hidden

namespace JobQueue.Text

/-- A number in hexadecimal, with small letters and no leading zero. -/
def hex (n : Nat) : String := String.ofList (Nat.toDigits 16 n)

/-- A character as it stands in a quoted text. -/
def quoteChar (c : Char) : String :=
  match c with
  | '\x00' => "\\0"
  | '\t' => "\\t"
  | '\r' => "\\r"
  | '\n' => "\\n"
  | '"' => "\\\""
  | '\\' => "\\\\"
  | c => if isHidden c then "\\u\x7b" ++ hex c.toNat ++ "\x7d" else c.toString

/-- A text between double quotes. -/
def quote (s : String) : String :=
  "\"" ++ String.join (s.toList.map quoteChar) ++ "\""

/-- A list of texts, quoted, between brackets. -/
def quoteList (ss : List String) : String :=
  "[" ++ ", ".intercalate (ss.map quote) ++ "]"

end JobQueue.Text
