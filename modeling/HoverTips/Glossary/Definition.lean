import HoverTips.Palette

/-!
# Definitions

What a hover over a well-known name shows, and tables of such names.
-/

namespace HoverTips

/-- The hover content of a well-known name. -/
structure Definition where
  /-- The one-line type, shown as the title. -/
  typeName : String
  documentation : String
  color : Color
  deriving DecidableEq, Repr

def Definition.toJson (d : Definition) : Json :=
  .obj [("type", .str d.typeName), ("documentation", .str d.documentation),
    ("color", d.color.toJson)]

def Definition.ofPalette (typeName documentation : String) (palette : Palette) : Definition :=
  ⟨typeName, documentation, palette.color⟩

/-- One row of a table: a name with its type and documentation. -/
structure TableRow where
  name : String
  typeName : String
  documentation : String
  deriving DecidableEq, Repr

/-- Rows that share a palette. -/
structure DefinitionTable where
  palette : Palette
  rows : List TableRow

def DefinitionTable.entries (t : DefinitionTable) : List (String × Definition) :=
  t.rows.map fun row => (row.name, .ofPalette row.typeName row.documentation t.palette)

end HoverTips
