import HoverTips.Json

/-!
# Type signatures

The outline of an interface, a class or a type alias that a block declares: one header line, and a
fenced rendering with one member a line.
-/

namespace HoverTips

/-- The declarations that have an outline. -/
inductive SignatureKind where
  | interface | classType | typeAlias
  deriving DecidableEq, Repr

namespace SignatureKind

def keyword : SignatureKind → String
  | interface => "interface"
  | classType => "class"
  | typeAlias => "type"

def name : SignatureKind → String
  | interface => "interface"
  | classType => "class"
  | typeAlias => "type-alias"

def ofNodeKind? : String → Option SignatureKind
  | "interface_declaration" => some interface
  | "class_declaration" | "abstract_class_declaration" | "class" => some classType
  | "type_alias_declaration" => some typeAlias
  | _ => none

end SignatureKind

/-- The outline of a type declaration. -/
structure TypeSignature where
  kind : SignatureKind
  name : String
  typeParameters : List String
  members : List String
  parents : List String
  interfaces : List String
  modifiers : List String
  /-- What a type alias stands for. -/
  aliased : Option String
  deriving DecidableEq, Repr

namespace TypeSignature

def clause (word : String) (items : List String) : String :=
  if items.isEmpty then "" else word ++ ", ".intercalate items

/-- The first line: modifiers, keyword, name and type parameters, then what an alias stands for or
what the declaration extends and implements. -/
def header (s : TypeSignature) : String :=
  String.join (s.modifiers.map (· ++ " ")) ++ s.kind.keyword ++ " " ++ s.name ++
    (if s.typeParameters.isEmpty then "" else "<" ++ ", ".intercalate s.typeParameters ++ ">") ++
    match s.aliased with
    | some target => " = " ++ target
    | none => clause " extends " s.parents ++ clause " implements " s.interfaces

/-- What follows the header: nothing but a semicolon for an alias, else the members in braces. -/
def body (s : TypeSignature) : String :=
  if s.aliased.isSome then ";"
  else if s.members.isEmpty then " \x7b\x7d"
  else " \x7b\n" ++ String.join (s.members.map fun m => "  " ++ m ++ ";\n") ++ "\x7d"

def fenced (s : TypeSignature) : String := "```typescript\n" ++ s.header ++ s.body ++ "\n```"

def toJson (s : TypeSignature) : Json :=
  .obj <| [("kind", .str s.kind.name), ("name", .str s.name)] ++
    Json.stringsMember? "typeParameters" s.typeParameters ++
    [("members", Json.strings s.members)] ++
    Json.stringsMember? "extends" s.parents ++
    Json.stringsMember? "implements" s.interfaces ++
    [("modifiers", Json.strings s.modifiers)] ++
    Json.member? "aliased" (s.aliased.map .str)

end TypeSignature

end HoverTips
