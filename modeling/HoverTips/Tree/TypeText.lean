import HoverTips.Tree.Reading
import HoverTips.Tree.Returns

/-!
# The type of an expression

`inferType` reads a type off the form of an initializer. A literal keeps its literal type unless it
is widened; everything else has one reading. Types of functions list their parameters, and a
parameter's default is read in turn, so the functions here recurse over the tree together.
-/

namespace HoverTips.Tree

/-- The type of an array whose elements have these types: the one type they share, else `any`. A
type with a space in it is put in parentheses. -/
def arrayType : Option String → List (Reading String) → Reading String
  | none, [] => .ok "any[]"
  | some type, [] =>
    .ok (if type.toList.contains ' ' then "(" ++ type ++ ")[]" else type ++ "[]")
  | seen, element :: elements => do
    let type ← element
    match seen with
    | none => arrayType (some type) elements
    | some first => if first == type then arrayType seen elements else return "any[]"

def objectType (members : List String) : String :=
  if members.isEmpty then "\x7b\x7d" else "\x7b " ++ "; ".intercalate members ++ "; \x7d"

/-- The type of a number literal, by its last letter. -/
def numberType (text : String) : String :=
  if text.toList.getLast? == some 'n' then "bigint" else "number"

def prefixOperatorType : String → String
  | "!" => "boolean"
  | "typeof" => "string"
  | "-" | "+" | "~" => "number"
  | "void" => "undefined"
  | _ => "any"

/-- The type of an expression with an operator between two operands. -/
def infixOperatorType : String → String
  | "==" | "!=" | "===" | "!==" | "<" | ">" | "<=" | ">=" | "instanceof" | "in" => "boolean"
  | "-" | "*" | "/" | "%" | "**" | "&" | "|" | "^" | "<<" | ">>" | ">>>" => "number"
  | _ => "any"

/-- The type that an operator among the children gives its expression. -/
def operatorType (typeOf : String → String) (children : List Node) : String :=
  match field? "operator" children with
  | some operator => typeOf operator.kind
  | none => "any"

/-- The compacted text of a field, empty when there is none. -/
def fieldText (src : List Char) (name : String) (children : List Node) : Reading String :=
  match field? name children with
  | some n => n.compactText src
  | none => .ok ""

/-- The type that `new` makes: the constructor with its type arguments. -/
def constructedType (src : List Char) (children : List Node) : Reading String :=
  match field? "constructor" children with
  | none => .ok "any"
  | some constructor => do
    let name ← constructor.compactText src
    return name ++ (← fieldText src "type_arguments" children)

/-- The type that `as` asserts: the last rule of the expression. -/
def assertedType (src : List Char) (children : List Node) : Reading String :=
  match (named children).getLast? with
  | some type => type.compactText src
  | none => .ok "any"

def returnType (src : List Char) (children : List Node) : Reading String :=
  match field? "return_type" children with
  | some note => annotationText src note
  | none => .ok (impliedReturn children)

def isParameter (kind : String) : Bool :=
  kind == "required_parameter" || kind == "optional_parameter"

/-- The type of a function, given its parameter list: type parameters, parameters, arrow and return
type. -/
def functionTypeOf (src : List Char) (cs : List Node) (parameters : Option (Reading String)) :
    Reading String := do
  let types ← fieldText src "type_parameters" cs
  let list ← match parameters, field? "parameter" cs with
    | some list, _ => list
    | none, some single => (fun name => "(" ++ name ++ ": any)") <$> single.text src
    | none, none => .ok "()"
  return types ++ list ++ " => " ++ (← returnType src cs)

/-- What follows the name of a callable, given its parameter list: type parameters, parameters,
colon and return type. -/
def callableTailOf (src : List Char) (cs : List Node) (parameters : Option (Reading String)) :
    Reading String := do
  let types ← fieldText src "type_parameters" cs
  let list ← parameters.getD (.ok "()")
  return types ++ list ++ ": " ++ (← returnType src cs)

def pairText (src : List Char) (cs : List Node) (value : Option (Reading String)) :
    Reading (Option String) :=
  match field? "key" cs with
  | none => .ok none
  | some key => do
    let name ← key.compactText src
    return some (name ++ ": " ++ (← value.getD (.ok "any")))

def methodText (src : List Char) (cs : List Node) (parameters : Option (Reading String)) :
    Reading (Option String) :=
  match field? "name" cs with
  | none => .ok none
  | some name => do
    let name ← name.text src
    return some (name ++ (← callableTailOf src cs parameters))

/-- A parameter of a given kind, given the type of its default: its pattern, a mark when it may be
left out, and its type, which is written, read off the default, or `any`. -/
def parameterOf (src : List Char) (kind : String) (cs : List Node)
    (default? : Option (Reading String)) : Reading (Option String) :=
  match field? "pattern" cs with
  | none => .ok none
  | some pattern => do
    let type ← match field? "type" cs with
      | some note => annotationText src note
      | none => default?.getD (.ok "any")
    let mark := if kind == "optional_parameter" || default?.isSome then "?" else ""
    return some ((← pattern.compactText src) ++ mark ++ ": " ++ type)

mutual

/-- The type of an expression. With `widen`, a literal reads as the type it belongs to. -/
def inferType (src : List Char) (widen : Bool) : Node → Reading String
  | .mk l cs => do
    let text ← (Node.mk l cs).text src
    match l.kind with
    | "number" => return if widen then numberType text else text
    | "string" => return if widen then "string" else text
    | "template_string" => return "string"
    | "true" | "false" => return if widen then "boolean" else l.kind
    | "null" | "undefined" => return if widen then "any" else l.kind
    | "regex" => return "RegExp"
    | "array" => arrayType none (elementTypes src cs)
    | "object" => return objectType (← memberTypes src cs)
    | "arrow_function" | "function_expression" | "function" =>
      functionTypeOf src cs (parametersText src cs)
    | "new_expression" => constructedType src cs
    | "as_expression" => assertedType src cs
    | "parenthesized_expression" | "satisfies_expression" => firstNamedType src widen cs
    | "unary_expression" => return operatorType prefixOperatorType cs
    | "binary_expression" => return operatorType infixOperatorType cs
    | _ => return "any"

def firstNamedType (src : List Char) (widen : Bool) : List Node → Reading String
  | [] => .ok "any"
  | c :: cs => if c.isNamed then inferType src widen c else firstNamedType src widen cs

/-- The widened types of the elements of an array, comments left out. -/
def elementTypes (src : List Char) : List Node → List (Reading String)
  | [] => []
  | c :: cs =>
    if c.isNamed && c.kind != "comment" then inferType src true c :: elementTypes src cs
    else elementTypes src cs

def memberTypes (src : List Char) : List Node → Reading (List String)
  | [] => .ok []
  | c :: cs => do
    if c.isNamed then
      let member ← memberType src c
      return member.toList ++ (← memberTypes src cs)
    else memberTypes src cs

/-- A member of an object with its type; spreads and the like show nothing. -/
def memberType (src : List Char) : Node → Reading (Option String)
  | .mk l cs =>
    match l.kind with
    | "pair" => pairText src cs (valueType src cs)
    | "shorthand_property_identifier" =>
      (fun name => some (name ++ ": any")) <$> (Node.mk l cs).text src
    | "method_definition" => methodText src cs (parametersText src cs)
    | _ => .ok none

def valueType (src : List Char) : List Node → Option (Reading String)
  | [] => none
  | c :: cs => if c.fills "value" then some (inferType src true c) else valueType src cs

def parametersText (src : List Char) : List Node → Option (Reading String)
  | [] => none
  | c :: cs => if c.fills "parameters" then some (parameterList src c) else parametersText src cs

def parameterList (src : List Char) : Node → Reading String
  | .mk _ cs => do return "(" ++ ", ".intercalate (← parameterTexts src cs) ++ ")"

def parameterTexts (src : List Char) : List Node → Reading (List String)
  | [] => .ok []
  | c :: cs => do
    if c.isNamed then
      let parameter ← parameterText src c
      return parameter.toList ++ (← parameterTexts src cs)
    else parameterTexts src cs

/-- One parameter with its type; other rules in the list show nothing. -/
def parameterText (src : List Char) : Node → Reading (Option String)
  | .mk l cs =>
    if isParameter l.kind then parameterOf src l.kind cs (valueType src cs) else .ok none

end

def callableTail (src : List Char) (children : List Node) : Reading String :=
  callableTailOf src children (parametersText src children)

/-- The type of a declared name: written in its annotation, read off its initializer, or `any`. -/
def declaredType (src : List Char) (widen : Bool) (children : List Node) : Reading String :=
  match field? "type" children, field? "value" children with
  | some note, _ => annotationText src note
  | none, some value => inferType src widen value
  | none, none => .ok "any"

end HoverTips.Tree
