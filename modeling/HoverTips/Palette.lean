import HoverTips.Json

/-!
# Palettes

Each kind of hover content has one fixed pair of colours.
-/

namespace HoverTips

/-- The colours of a tooltip. -/
structure Color where
  text : String
  background : String
  deriving DecidableEq, Repr

def Color.toJson (c : Color) : Json :=
  .obj [("text", .str c.text), ("background", .str c.background)]

/-- The kinds of hover content that have colours of their own. -/
inductive Palette where
  | keyword | builtin | promise | webApi | grpc | project | contextual | typeSignature | error
  deriving DecidableEq, Repr

namespace Palette

def all : List Palette :=
  [keyword, builtin, promise, webApi, grpc, project, contextual, typeSignature, error]

def name : Palette → String
  | keyword => "keyword"
  | builtin => "builtin"
  | promise => "promise"
  | webApi => "web-api"
  | grpc => "grpc"
  | project => "project"
  | contextual => "contextual"
  | typeSignature => "type-signature"
  | error => "error"

def color : Palette → Color
  | keyword => ⟨"#c678dd", "#2c2135"⟩
  | builtin => ⟨"#e5c07b", "#2f2a1e"⟩
  | promise => ⟨"#56b6c2", "#1c2e31"⟩
  | webApi => ⟨"#61afef", "#1b2a38"⟩
  | grpc => ⟨"#98c379", "#22301c"⟩
  | project => ⟨"#d19a66", "#33261a"⟩
  | contextual => ⟨"#abb2bf", "#21252b"⟩
  | typeSignature => ⟨"#4ec9b0", "#1e2d2a"⟩
  | error => ⟨"#f44747", "#3a1d1d"⟩

def ofName? (s : String) : Option Palette := all.find? (·.name == s)

theorem ofName?_name (p : Palette) : ofName? p.name = some p := by cases p <;> rfl

end Palette

end HoverTips
