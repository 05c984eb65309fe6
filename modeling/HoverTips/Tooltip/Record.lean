import HoverTips.Token

/-!
# Tooltip records

A record is what the hover UI reads for one tooltip: which words open it, what it shows, and how it
is placed. What produced a record is kept beside it for the metrics and is not written out.
-/

namespace HoverTips

inductive Theme where
  | light | dark
  deriving DecidableEq, Repr

namespace Theme

def name : Theme → String
  | light => "light"
  | dark => "dark"

end Theme

inductive Position where
  | top | bottom | left | right
  deriving DecidableEq, Repr

def Position.name : Position → String
  | top => "top"
  | bottom => "bottom"
  | left => "left"
  | right => "right"

/-- How a tooltip looks and where it opens. -/
structure Appearance where
  theme : Theme
  position : Position
  /-- The distance from the trigger in pixels. -/
  offset : UInt32
  deriving DecidableEq, Repr

/-- Tooltips are light and open eight pixels below their trigger unless they say otherwise. -/
def Appearance.standard : Appearance := ⟨.light, .bottom, 8⟩

def Appearance.toJson (a : Appearance) : Json :=
  .obj [("theme", .str a.theme.name), ("position", .str a.position.name),
    ("offset", .nat a.offset.toNat)]

/-- How a tooltip is positioned on the page. -/
inductive PortalStrategy where
  | fixed | absolute
  deriving DecidableEq, Repr

def PortalStrategy.name : PortalStrategy → String
  | fixed => "fixed"
  | absolute => "absolute"

/-- What a tooltip shows. -/
structure TooltipContent where
  title : String
  description : String
  color : Option Color
  /-- Whether the tooltip reports an error. -/
  isError : Bool
  deriving DecidableEq, Repr

def TooltipContent.plain (title description : String) : TooltipContent :=
  ⟨title, description, none, false⟩

def TooltipContent.toJson (c : TooltipContent) : Json :=
  .obj <| [("title", .str c.title), ("description", .str c.description)] ++
    Json.member? "color" (c.color.map Color.toJson) ++
    Json.member? "severity" (if c.isError then some (.str "error") else none)

/-- What produced a record. -/
inductive TooltipKind where
  | token (k : TokenKind)
  /-- The note about the parsers of a fence tag. -/
  | parser
  /-- A phrase in the prose. -/
  | global
  deriving DecidableEq, Repr

namespace TooltipKind

def name : TooltipKind → String
  | token k => k.name
  | parser => "parser"
  | global => "global"

/-- Every kind, in the order of their names. -/
def all : List TooltipKind := [token .error, global, token .identifier, token .keyword, parser]

theorem mem_all (k : TooltipKind) : k ∈ all := by
  cases k with
  | token t => cases t <;> decide
  | parser => decide
  | global => decide

end TooltipKind

/-- A tooltip. -/
structure TooltipRecord where
  id : String
  trigger : List String
  content : TooltipContent
  appearance : Appearance
  portal : PortalStrategy
  kind : TooltipKind
  deriving DecidableEq, Repr

namespace TooltipRecord

/-- The term that metrics count the record under: its first trigger. -/
def term (r : TooltipRecord) : String := r.trigger.head?.getD r.id

def toJson (r : TooltipRecord) : Json :=
  .obj [("id", .str r.id), ("trigger", Json.strings r.trigger), ("content", r.content.toJson),
    ("appearance", r.appearance.toJson), ("portal", .obj [("strategy", .str r.portal.name)])]

end TooltipRecord

end HoverTips
