import HoverTips.Analysis
import HoverTips.Text.Case
import HoverTips.Text.Words

/-!
# Fence tags

The info string behind the opening fence of a block names its language. Its first word, in lower
case and without the ending that asks for a preview, is the tag; four families of tags have a
parser.
-/

namespace HoverTips

/-- The tag of an info string: its first word without one `:preview` at the end, in lower case. -/
def fenceTag (info : String) : String :=
  match Text.fields info.toList with
  | [] => ""
  | word :: _ => Text.asciiLowercase (Text.dropEnding ":preview" (String.ofList word))

/-- The grammars that trees are built with. -/
inductive Grammar where
  | typescript | tsx
  deriving DecidableEq, Repr

def Grammar.name : Grammar → String
  | typescript => "typescript"
  | tsx => "tsx"

/-- The dialects of the language that blocks are written in. -/
inductive Flavor where
  | typescript | tsx | javascript | jsx
  deriving DecidableEq, Repr

namespace Flavor

def all : List Flavor := [typescript, tsx, javascript, jsx]

def name : Flavor → String
  | typescript => "typescript"
  | tsx => "tsx"
  | javascript => "javascript"
  | jsx => "jsx"

def ofName? (s : String) : Option Flavor := all.find? (·.name == s)

/-- Markup elements are expressions in two of the flavors. -/
def capabilities : Flavor → Capabilities
  | typescript => ⟨false, true⟩
  | tsx => ⟨true, true⟩
  | javascript => ⟨false, false⟩
  | jsx => ⟨true, false⟩

def grammar (f : Flavor) : Grammar := if f.capabilities.jsx then .tsx else .typescript

/-- The flavor that a fence tag asks for; no flavor leaves the block to the glossary scan. -/
def ofTag? : String → Option Flavor
  | "typescript" | "ts" | "mts" | "cts" => some typescript
  | "tsx" => some tsx
  | "jsx" => some jsx
  | "javascript" | "js" | "mjs" | "cjs" => some javascript
  | _ => none

def ofInfo? (info : String) : Option Flavor := ofTag? (fenceTag info)

end Flavor

end HoverTips
