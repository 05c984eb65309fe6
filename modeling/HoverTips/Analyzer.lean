import HoverTips.Block.Parser
import HoverTips.Markdown.Page

/-!
# The analyzer

Trees of code, events of markdown and searches for expressions come from an analyzer outside this
library. What it finds is handed over as functions.
-/

namespace HoverTips

/-- What the analyzer finds in texts. -/
structure Analyzer where
  trees : Trees
  events : (markdown : String) → List Markdown.Event
  engine : Text.Engine

def Analyzer.page (a : Analyzer) (path markdown : String) : Markdown.Page :=
  .ofEvents path (a.events markdown)

end HoverTips
