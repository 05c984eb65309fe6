import HoverTips.Tree.Initializer

/-!
# Syntax faults

The tree marks what the grammar could not place and what it had to make up. Marked text that
reaches into the wrapper is cut down to the source; what lies in the wrapper alone is no fault of
the block.
-/

namespace HoverTips.Tree

/-- A text with its first letter, an ASCII one, as a capital. -/
def capitalized : List Char → List Char
  | [] => []
  | c :: cs => c.toUpper :: cs

/-- The wording for a token that the text lacks: rules by their name, literal tokens in quotes. -/
def missingMessage (l : Label) : String :=
  if l.named then
    String.ofList (capitalized (l.kind.toList.map fun c => if c == '_' then ' ' else c)) ++
      " expected."
  else "'" ++ l.kind ++ "' expected."

/-- The most characters of an unexpected word that a message shows. -/
def shownCharacters : Nat := 24

def shortened (word : List Char) : String :=
  if word.length ≤ shownCharacters then String.ofList word
  else String.ofList (word.take shownCharacters ++ ['…'])

/-- The wording for text that the grammar could not place, by its first word. -/
def unexpectedMessage (text : List Char) : String :=
  match Text.fields text with
  | word :: _ => "Unexpected token '" ++ shortened word ++ "'."
  | [] => "Unexpected token."

/-- A span of text without the white space at its ends; a span of white space stays as it is. -/
def trimSpan (s : Span) (text : List Char) : Span :=
  if Text.isBlank text then s
  else
    let start := s.start + Text.byteLength (text.takeWhile Text.isSpace)
    ⟨start, start + Text.byteLength (Text.trim text)⟩

/-- The fault that a node marks, if it marks one in the window. -/
def syntaxFault (src : List Char) (window : Span) (n : Node) : Reading (Option Diagnostic) :=
  if n.label.isMissing then .ok (some ⟨n.span, missingMessage n.label⟩)
  else if n.label.isError then
    match n.span.meet? window with
    | none => .ok none
    | some shared => do
      let text ← readSpan src shared
      return some ⟨trimSpan shared text, unexpectedMessage (Text.trim text)⟩
  else .ok none

end HoverTips.Tree
