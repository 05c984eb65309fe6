import HoverTips.Text.Words
import HoverTips.Tree.Node

/-!
# Reading a node's text

A walk over the tree reads text out of the wrapped block. A span that does not select text ends the
walk with a cause; the cause and its wording are here.
-/

namespace HoverTips.Tree

/-- Why a walk could not finish. -/
inductive WalkError where
  /-- The block has no tree. -/
  | noTree
  /-- A span over the wrapped text does not select text. -/
  | unreadable (m : Text.Misfit) (span : Span)
  /-- A token's span does not select text of the source. -/
  | misplaced (span : Span)
  deriving DecidableEq, Repr

namespace WalkError

def outsideMessage (s : Span) : String :=
  "token range " ++ toString s.start ++ ".." ++ toString s.stop ++ " does not map onto the source"

def message : WalkError → String
  | noTree => "the parser produced no syntax tree"
  | unreadable .outside s => outsideMessage s
  | unreadable .splitsStart _ =>
    "node text is not valid UTF-8: invalid utf-8 sequence of 1 bytes from index 0"
  | unreadable (.splitsEnd whole) _ =>
    "node text is not valid UTF-8: incomplete utf-8 byte sequence from index " ++ toString whole
  | misplaced s => outsideMessage s

end WalkError

/-- A value read off the tree, or the reason why the walk stops. -/
abbrev Reading := Except WalkError

def readSpan (text : List Char) (s : Span) : Reading (List Char) :=
  match Text.cut text s.start s.stop with
  | .ok piece => .ok piece
  | .error m => .error (.unreadable m s)

namespace Node

def text (src : List Char) (n : Node) : Reading String := String.ofList <$> readSpan src n.span

/-- The text of a node on one line, with single spaces. -/
def compactText (src : List Char) (n : Node) : Reading String := Text.compact <$> n.text src

end Node

/-- The type written in an annotation: its first rule, or what follows the colons. -/
def annotationText (src : List Char) (note : Node) : Reading String :=
  match firstNamed? note.children with
  | some type => type.compactText src
  | none => do
    let text ← note.text src
    return Text.compact (String.ofList (Text.trimStartOf (· == ':') text.toList))

/-- The words before a member's name that change its meaning, in written order. -/
def modifiers (src : List Char) (children : List Node) : Reading (List String) :=
  children.foldr
    (fun child later =>
      match child.kind with
      | "accessibility_modifier" | "override_modifier" => do
        let word ← child.compactText src
        return word :: (← later)
      | "static" | "readonly" | "declare" | "abstract" | "async" | "get" | "set" =>
        if child.isNamed then later else (child.kind :: ·) <$> later
      | _ => later)
    (.ok [])

end HoverTips.Tree
