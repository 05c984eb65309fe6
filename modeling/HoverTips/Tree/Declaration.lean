import HoverTips.Token
import HoverTips.Tree.TypeText

/-!
# Declarations

What a declaration says about the name it declares: the outline of a type, or one line for a
variable, parameter, property, function or method.

```text
(const variable) x: number
(parameter) name?: string = "anon"
(private readonly property) cache: Map<string, T>
(function) load(id: string): Promise<User>
```
-/

namespace HoverTips.Tree

/-! ## Outlines of types -/

/-- The words before a type declaration, which stand in its parent or as its children. -/
def declarationModifiers (parent? : Option Node) (children : List Node) : List String :=
  let outer := match parent? with
    | none => []
    | some parent =>
      match parent.kind with
      | "export_statement" =>
        if hasKind "default" parent.children then ["export", "default"] else ["export"]
      | "ambient_declaration" => ["declare"]
      | _ => []
  if hasKind "abstract" children then outer ++ ["abstract"] else outer

/-- Adds type arguments to the type before them. -/
def glueArguments (arguments : String) : List String → List String
  | [] => [arguments]
  | [last] => [last ++ arguments]
  | first :: second :: rest => first :: glueArguments arguments (second :: rest)

/-- The types named in a clause such as `extends`, each with its type arguments. -/
def heritageTypes (src : List Char) (clause : Node) : Reading (List String) :=
  (named clause.children).foldlM
    (fun types child => do
      let text ← child.compactText src
      match child.kind with
      | "type_arguments" => return glueArguments text types
      | "comment" => return types
      | _ => return types ++ [text])
    []

/-- The modifiers of a member, each with a space behind it. -/
def modifierText (src : List Char) (children : List Node) : Reading String :=
  (fun words => String.join (words.map (· ++ " "))) <$> modifiers src children

def nameText (src : List Char) (children : List Node) : Reading String :=
  match field? "name" children with
  | some name => name.text src
  | none => .ok ""

/-- A property of an interface or class, without what it is set to. -/
def propertyMember (src : List Char) (member : Node) : Reading String := do
  let words ← modifierText src member.children
  let name ← nameText src member.children
  let mark := if hasKind "?" member.children then "?" else if hasKind "!" member.children then "!"
    else ""
  return words ++ name ++ mark ++ ": " ++ (← declaredType src true member.children)

/-- A method of an interface or class, without its body. -/
def methodMember (src : List Char) (member : Node) : Reading String := do
  let words ← modifierText src member.children
  let name ← nameText src member.children
  let mark := if hasKind "?" member.children then "?" else ""
  return words ++ name ++ mark ++ (← callableTail src member.children)

/-- A member on one line, without the separators at its end. -/
def plainMember (src : List Char) (member : Node) : Reading String := do
  let text ← member.text src
  return Text.compact (String.ofList (Text.trimEndOf (fun c => c == ';' || c == ',') text.toList))

/-- A member of an interface; comments show nothing. -/
def interfaceMember (src : List Char) (member : Node) : Reading (Option String) :=
  match member.kind with
  | "property_signature" => some <$> propertyMember src member
  | "method_signature" => some <$> methodMember src member
  | "comment" => .ok none
  | _ => some <$> plainMember src member

/-- A member of a class; comments, decorators and static blocks show nothing. -/
def classMember (src : List Char) (member : Node) : Reading (Option String) :=
  match member.kind with
  | "public_field_definition" => some <$> propertyMember src member
  | "method_definition" | "method_signature" | "abstract_method_signature" =>
    some <$> methodMember src member
  | "index_signature" => some <$> plainMember src member
  | _ => .ok none

/-- What `read` makes of the rules in the body of a declaration. -/
def bodyMembers (read : Node → Reading (Option String)) (children : List Node) :
    Reading (List String) :=
  match field? "body" children with
  | some body => (named body.children).filterMapM read
  | none => .ok []

def typeParameters (src : List Char) (children : List Node) : Reading (List String) :=
  match field? "type_parameters" children with
  | some list =>
    ((named list.children).filter (·.kind == "type_parameter")).mapM (·.compactText src)
  | none => .ok []

def clauseTypes (src : List Char) (kind : String) (clauses : List Node) : Reading (List String) :=
  List.flatten <$> (clauses.filter (·.kind == kind)).mapM (heritageTypes src)

/-- The clauses of a class, which stand in its heritage. -/
def heritageClauses (children : List Node) : List Node :=
  (children.filter (·.kind == "class_heritage")).flatMap fun heritage => named heritage.children

/-- The outline of a type declaration, if the node is one and has a name. -/
def signatureOf (src : List Char) (parent? : Option Node) (declaration : Node) :
    Reading (Option TypeSignature) :=
  match SignatureKind.ofNodeKind? declaration.kind, field? "name" declaration.children with
  | some kind, some name => do
    let children := declaration.children
    let plain : TypeSignature :=
      { kind, name := ← name.text src, typeParameters := ← typeParameters src children,
        members := [], parents := [], interfaces := [],
        modifiers := declarationModifiers parent? children, aliased := none }
    match kind with
    | .interface =>
      return some { plain with
        parents := ← clauseTypes src "extends_type_clause" children
        members := ← bodyMembers (interfaceMember src) children }
    | .classType =>
      return some { plain with
        parents := ← clauseTypes src "extends_clause" (heritageClauses children)
        interfaces := ← clauseTypes src "implements_clause" (heritageClauses children)
        members := ← bodyMembers (classMember src) children }
    | .typeAlias =>
      match field? "value" children with
      | some value => return some { plain with aliased := some (← value.compactText src) }
      | none => return some plain
  | _, _ => .ok none

/-! ## One line about a name -/

/-- The word that declares a variable, read off the declaration around its declarator. -/
def variableKeyword (declaration? : Option Node) : String :=
  match declaration? with
  | none => "let"
  | some declaration =>
    if declaration.kind == "variable_declaration" then "var"
    else match declaration.children.head? with
      | some first => if first.kind == "const" then "const" else "let"
      | none => "let"

/-- The line about a variable. A constant keeps the literal type of its initializer. -/
def variableLabel (src : List Char) (declaration? : Option Node) (declarator : Node)
    (name : String) : Reading String := do
  let keyword := variableKeyword declaration?
  let type ← declaredType src (keyword != "const") declarator.children
  return "(" ++ keyword ++ " variable) " ++ name ++ ": " ++ type

def parameterLabel (src : List Char) (parameter : Node) (name : String) : Reading String := do
  let type ← declaredType src true parameter.children
  let mark := if parameter.kind == "optional_parameter" then "?" else ""
  let default ← match field? "value" parameter.children with
    | some value => (" = " ++ ·) <$> value.compactText src
    | none => .ok ""
  return "(parameter) " ++ name ++ mark ++ ": " ++ type ++ default

def propertyLabel (src : List Char) (member : Node) (name : String) : Reading String := do
  let words ← modifierText src member.children
  let type ← declaredType src true member.children
  let mark := if hasKind "?" member.children then "?" else ""
  return "(" ++ words ++ "property) " ++ name ++ mark ++ ": " ++ type

def functionLabel (src : List Char) (declaration : Node) (name : String) : Reading String :=
  ("(function) " ++ name ++ ·) <$> callableTail src declaration.children

def methodLabel (src : List Char) (member : Node) (name : String) : Reading String :=
  ("(method) " ++ name ++ ·) <$> callableTail src member.children

/-- The line about a name that fills a field of its parent, if the parent declares names there. -/
def lineAbout (src : List Char) (grandparent? : Option Node) (parent node : Node)
    (name : String) : Reading (Option String) :=
  match parent.kind with
  | "variable_declarator" =>
    if node.fills "name" then some <$> variableLabel src grandparent? parent name else .ok none
  | "required_parameter" | "optional_parameter" =>
    if node.fills "pattern" then some <$> parameterLabel src parent name else .ok none
  | "arrow_function" =>
    if node.fills "parameter" then .ok (some ("(parameter) " ++ name ++ ": any")) else .ok none
  | "public_field_definition" | "property_signature" =>
    if node.fills "name" then some <$> propertyLabel src parent name else .ok none
  | "function_declaration" | "generator_function_declaration" | "function_signature" =>
    if node.fills "name" then some <$> functionLabel src parent name else .ok none
  | "method_definition" | "method_signature" | "abstract_method_signature" =>
    if node.fills "name" then some <$> methodLabel src parent name else .ok none
  | _ => .ok none

/-- The hover content of a name that its parent declares: an outline for a type, else a line. -/
def declaredInfo (src : List Char) (v : Visit) (name : String) : Reading (Option HoverInfo) :=
  match v.ancestors with
  | [] => .ok none
  | parent :: outer =>
    if (SignatureKind.ofNodeKind? parent.kind).isSome && v.node.fills "name" then
      Option.map .signature <$> signatureOf src outer.head? parent
    else Option.map .label <$> lineAbout src outer.head? parent v.node name

end HoverTips.Tree
