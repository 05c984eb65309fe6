import HoverTips.Tree.Literal

/-!
# Literal initializers against their annotations

A declaration `name: T = literal` is reported when `T` is made of types the check knows, and none of
them accepts the literal. A union accepts what one of its members accepts; a type the check does not
know silences it; `null` and `undefined` are accepted by every type.
-/

namespace HoverTips.Tree

/-- Whether a type accepts a literal. -/
inductive Verdict where
  | accepts
  /-- Every part refuses the literal; `literalTarget` says whether a literal type is among them. -/
  | refuses (literalTarget : Bool)
  /-- Some part is of a form the check does not know. -/
  | unknown
  deriving DecidableEq, Repr

def primitiveVerdict (base : LiteralBase) : String → Verdict
  | "any" | "unknown" => .accepts
  | "number" => if base = .number then .accepts else .refuses false
  | "string" => if base = .string then .accepts else .refuses false
  | "boolean" => if base = .boolean then .accepts else .refuses false
  | "bigint" => if base = .bigint then .accepts else .refuses false
  | "symbol" | "object" | "never" | "void" => .refuses false
  | _ => .unknown

/-- The verdict of a literal type: it accepts the literal that is shown alike. -/
def literalVerdict (literal : Literal) : Option Literal → Verdict
  | none => .unknown
  | some target =>
    if target.base = literal.base ∧ target.shown = literal.shown then .accepts else .refuses true

mutual

/-- The verdict of a type on a literal that is neither `null` nor `undefined`. -/
def Node.verdict (src : List Char) (literal : Literal) : Node → Reading Verdict
  | .mk l cs =>
    match l.kind with
    | "predefined_type" => primitiveVerdict literal.base <$> (Node.mk l cs).text src
    | "literal_type" => literalVerdict literal <$> literalOfType src cs
    | "union_type" => unionVerdict src literal false false cs
    | "parenthesized_type" => firstVerdict src literal cs
    | _ => .ok .unknown

def firstVerdict (src : List Char) (literal : Literal) : List Node → Reading Verdict
  | [] => .ok .unknown
  | c :: cs => if c.isNamed then c.verdict src literal else firstVerdict src literal cs

/-- The verdict of the members of a union, after members that refused: whether one of those was a
literal type, and whether one was unknown. -/
def unionVerdict (src : List Char) (literal : Literal) (literalTarget unknown : Bool) :
    List Node → Reading Verdict
  | [] => .ok (if unknown then .unknown else .refuses literalTarget)
  | c :: cs =>
    if c.isNamed then do
      match ← c.verdict src literal with
      | .accepts => return .accepts
      | .refuses isLiteral => unionVerdict src literal (literalTarget || isLiteral) unknown cs
      | .unknown => unionVerdict src literal literalTarget true cs
    else unionVerdict src literal literalTarget unknown cs

end

def assignable (src : List Char) (type : Node) (literal : Literal) : Reading Verdict :=
  if literal.base = .null ∨ literal.base = .undefined then .ok .accepts
  else type.verdict src literal

mutual

/-- A type as a message shows it: literals in double quotes, the rest as written. -/
def Node.shownType (src : List Char) : Node → Reading String
  | .mk l cs =>
    match l.kind with
    | "literal_type" => do
      match ← literalOfType src cs with
      | some literal => return literal.shown
      | none => (Node.mk l cs).compactText src
    | "union_type" => do return " | ".intercalate (← shownMembers src cs)
    | "parenthesized_type" =>
      match shownFirst src cs with
      | some inner => (fun text => "(" ++ text ++ ")") <$> inner
      | none => (Node.mk l cs).compactText src
    | _ => (Node.mk l cs).compactText src

def shownMembers (src : List Char) : List Node → Reading (List String)
  | [] => .ok []
  | c :: cs => do
    if c.isNamed then
      let text ← c.shownType src
      return text :: (← shownMembers src cs)
    else shownMembers src cs

def shownFirst (src : List Char) : List Node → Option (Reading String)
  | [] => none
  | c :: cs => if c.isNamed then some (c.shownType src) else shownFirst src cs

end

/-- Something to report about a span of the wrapped text. -/
structure Diagnostic where
  span : Span
  message : String
  deriving DecidableEq, Repr

def initializerDiagnostic (src : List Char) (declared value : Node) (literal : Literal)
    (literalTarget : Bool) : Reading Diagnostic := do
  let shown := if literalTarget then literal.shown else literal.base.name
  let type ← declared.shownType src
  return ⟨value.span, "Type '" ++ shown ++ "' is not assignable to type '" ++ type ++ "'."⟩

/-- The report about the initializer among the children of a declaration, if there is one. -/
def checkInitializer (src : List Char) (children : List Node) : Reading (Option Diagnostic) :=
  match field? "type" children, field? "value" children with
  | some note, some value =>
    match firstNamed? note.children with
    | none => .ok none
    | some declared => do
      match ← literalOf src value with
      | none => return none
      | some literal =>
        match ← assignable src declared literal with
        | .refuses literalTarget =>
          some <$> initializerDiagnostic src declared value literal literalTarget
        | _ => return none
  | _, _ => .ok none

end HoverTips.Tree
