import HoverTips.Tree.TypeText

/-!
# Literals

The literal initializers that an annotation is checked against, and the literal types that may stand
in the annotation. Both are compared by the type they belong to and by how they are shown.
-/

namespace HoverTips.Tree

/-- The type that a literal belongs to. -/
inductive LiteralBase where
  | number | bigint | string | boolean | null | undefined
  deriving DecidableEq, Repr

def LiteralBase.name : LiteralBase → String
  | number => "number"
  | bigint => "bigint"
  | string => "string"
  | boolean => "boolean"
  | null => "null"
  | undefined => "undefined"

/-- A literal as it is written. -/
structure Literal where
  base : LiteralBase
  text : String
  deriving DecidableEq, Repr

def isQuote (c : Char) : Bool := c == '"' || c == '\'' || c == '`'

/-- The text between two equal quotes, or the text as it is; white space around it is dropped. -/
def unquote (text : String) : String :=
  let trimmed := Text.trim text.toList
  match trimmed with
  | first :: second :: rest =>
    if isQuote first && (second :: rest).getLast? == some first then
      String.ofList (second :: rest).dropLast
    else String.ofList trimmed
  | _ => String.ofList trimmed

/-- A literal as a type is shown: strings in double quotes, the rest on one line. -/
def Literal.shown (l : Literal) : String :=
  if l.base = .string then "\"" ++ unquote l.text ++ "\"" else Text.compact l.text

def literalBase? (kind text : String) : Option LiteralBase :=
  match kind with
  | "number" => some (if text.toList.getLast? == some 'n' then .bigint else .number)
  | "string" | "template_string" => some .string
  | "true" | "false" => some .boolean
  | "null" => some .null
  | "undefined" => some .undefined
  | _ => none

mutual

/-- The literal that an expression is, in any number of parentheses. -/
def literalOf (src : List Char) : Node → Reading (Option Literal)
  | .mk l cs => do
    let text ← (Node.mk l cs).text src
    if l.kind == "parenthesized_expression" then firstLiteral src cs
    else return (literalBase? l.kind text).map (⟨·, text⟩)

def firstLiteral (src : List Char) : List Node → Reading (Option Literal)
  | [] => .ok none
  | c :: cs => if c.isNamed then literalOf src c else firstLiteral src cs

end

/-- The literal of a literal type; a sign in front of it makes a number. -/
def literalOfType (src : List Char) (children : List Node) : Reading (Option Literal) :=
  match firstNamed? children with
  | some inner =>
    if inner.kind == "unary_expression" then (fun text => some ⟨.number, text⟩) <$> inner.text src
    else literalOf src inner
  | none => .ok none

end HoverTips.Tree
