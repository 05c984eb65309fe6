/-!
# Search expressions

A search in texts is written as a regular expression. Expressions are handed to an engine outside
this library, which takes an expression or refuses it, as it does with one that grows too large.
-/

namespace HoverTips.Text

/-- Whether the engine takes an expression. -/
abbrev Engine := (expression : String) → Bool

/-- Whether a character says something about the search and has to be escaped to stand for itself. -/
def isOperator : Char → Bool
  | '\\' | '.' | '+' | '*' | '?' | '(' | ')' | '|' | '[' | ']' | '\x7b' | '\x7d' | '^' | '$' | '#'
  | '&' | '-' | '~' => true
  | _ => false

/-- The expression that only the text itself matches. -/
def escape (cs : List Char) : List Char :=
  cs.flatMap fun c => if isOperator c then ['\\', c] else [c]

def boundaryMark : String := "\\b"

end HoverTips.Text
