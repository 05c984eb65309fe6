import HoverTips.Block.Wrapped
import HoverTips.Tree.Declaration
import HoverTips.Tree.Fault

/-!
# The walk over a block's tree

The walk visits every node in pre-order and notes identifiers, keywords and faults. What a name
declares is known only when the whole block was seen, so tokens are made afterwards: a use borrows
the hover content of the first declaration of its name, and falls back to the registry.
-/

namespace HoverTips.Tree

def isIdentifierKind : String → Bool
  | "identifier" | "type_identifier" | "property_identifier" | "shorthand_property_identifier"
  | "shorthand_property_identifier_pattern" | "private_property_identifier"
  | "statement_identifier" => true
  | _ => false

/-- The kinds of identifiers that name a binding, so that a use can borrow from its declaration.
Member names are not among them. -/
def isBindingKind : String → Bool
  | "identifier" | "type_identifier" | "shorthand_property_identifier"
  | "shorthand_property_identifier_pattern" => true
  | _ => false

def isKeywordLiteral : String → Bool
  | "this" | "super" | "true" | "false" | "null" | "undefined" => true
  | _ => false

def isKeyword : String → Bool
  | "abstract" | "any" | "as" | "async" | "await" | "bigint" | "boolean" | "break" | "case"
  | "catch" | "class" | "const" | "continue" | "declare" | "default" | "delete" | "do" | "else"
  | "enum" | "export" | "extends" | "finally" | "for" | "from" | "function" | "get" | "if"
  | "implements" | "import" | "in" | "infer" | "instanceof" | "interface" | "is" | "keyof" | "let"
  | "module" | "namespace" | "never" | "new" | "number" | "object" | "of" | "override" | "private"
  | "protected" | "public" | "readonly" | "return" | "satisfies" | "set" | "static" | "string"
  | "switch" | "symbol" | "throw" | "try" | "type" | "typeof" | "unknown" | "var" | "void"
  | "while" | "yield" => true
  | _ => false

def isCheckedDeclaration : String → Bool
  | "variable_declarator" | "required_parameter" | "optional_parameter"
  | "public_field_definition" => true
  | _ => false

/-- A token to be. -/
structure Sighting where
  /-- Where it lies in the source. -/
  span : Span
  kind : TokenKind
  /-- The name with the hover content it declares. -/
  declared : Option (String × HoverInfo)
  /-- Whether it may borrow from a declaration of its name. -/
  isBinding : Bool
  deriving DecidableEq, Repr

/-- What the walk notes about one node. -/
inductive Finding where
  | sighting (s : Sighting)
  | diagnostic (d : Diagnostic)
  deriving DecidableEq, Repr

namespace Finding

def sighting? : Finding → Option Sighting
  | sighting s => some s
  | diagnostic _ => none

def diagnostic? : Finding → Option Diagnostic
  | diagnostic d => some d
  | sighting _ => none

end Finding

def keywordFinding (w : Wrapped) (n : Node) : Option Finding :=
  (w.toSource? n.span).map fun span => .sighting ⟨span, .keyword, none, false⟩

def identifierFinding (w : Wrapped) (v : Visit) : Reading (Option Finding) :=
  match w.toSource? v.node.span with
  | none => .ok none
  | some span => do
    let name ← v.node.text w.text
    let info ← declaredInfo w.text v name
    return some (.sighting ⟨span, .identifier, info.map (name, ·), isBindingKind v.node.kind⟩)

def ruleFinding (w : Wrapped) (typeChecking : Bool) (v : Visit) : Reading (Option Finding) :=
  if isIdentifierKind v.node.kind then identifierFinding w v
  else if isKeywordLiteral v.node.kind then .ok (keywordFinding w v.node)
  else if typeChecking && isCheckedDeclaration v.node.kind then
    Option.map .diagnostic <$> checkInitializer w.text v.node.children
  else .ok none

/-- What one node gives rise to: a fault it marks, or else what its kind stands for. -/
def finding (w : Wrapped) (typeChecking : Bool) (v : Visit) : Reading (Option Finding) := do
  match ← syntaxFault w.text w.window v.node with
  | some fault => return some (.diagnostic fault)
  | none =>
    if v.node.isNamed then ruleFinding w typeChecking v
    else if isKeyword v.node.kind then return keywordFinding w v.node
    else return none

def findings (w : Wrapped) (typeChecking : Bool) (root : Node) : Reading (List Finding) :=
  (root.visits []).filterMapM (finding w typeChecking)

/-- The names that sightings declare with their hover content, in order. -/
def declarations (sightings : List Sighting) : List (String × HoverInfo) :=
  sightings.filterMap (·.declared)

/-- The hover content of a sighting with a text: its own, else what it borrows, else what the
registry knows. -/
def Sighting.info (r : Registry) (declared : List (String × HoverInfo)) (s : Sighting)
    (text : String) : Option HoverInfo :=
  (s.declared.map (·.2)).or
    ((if s.isBinding then declared.lookup text else none).or (r.hover text))

def Sighting.token (r : Registry) (declared : List (String × HoverInfo)) (source : List Char)
    (s : Sighting) : Reading Token :=
  match Token.at? source s.span s.kind with
  | some t => .ok { t with info := s.info r declared t.text }
  | none => .error (.misplaced s.span)

/-- Adds the error of a diagnostic, unless it covers nothing or stands there already. -/
def addError (w : Wrapped) (errors : List Token) (d : Diagnostic) : List Token :=
  match w.reportSpan? d.span with
  | none => errors
  | some span =>
    if errors.any fun e => e.span == span && e.message == some d.message then errors
    else errors ++ (Token.errorAt? w.source span d.message).toList

/-- The errors of diagnostics, each once. -/
def errorsOf (w : Wrapped) (diagnostics : List Diagnostic) : List Token :=
  diagnostics.foldl (addError w) []

/-- What the walk found, in the coordinates of the source. -/
structure WalkResult where
  tokens : List Token
  errors : List Token

def walk (r : Registry) (w : Wrapped) (typeChecking : Bool) (root : Node) : Reading WalkResult := do
  let found ← findings w typeChecking root
  let sightings := found.filterMap Finding.sighting?
  let tokens ← sightings.mapM (Sighting.token r (declarations sightings) w.source)
  return ⟨tokens, errorsOf w (found.filterMap Finding.diagnostic?)⟩

end HoverTips.Tree
