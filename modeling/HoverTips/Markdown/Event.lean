/-!
# Markdown events

A page comes from the analyzer as a stream of events in document order. Starts and ends of elements
carry the element's name; the two kinds of code blocks start apart and end alike.
-/

namespace HoverTips.Markdown

/-- One step of a walk through a page. -/
inductive Event where
  /-- A fenced code block starts. -/
  | startFenced (info : String)
  /-- An indented code block starts. -/
  | startIndented
  /-- Any other element starts. -/
  | start (element : String)
  /-- A code block of either kind ends. -/
  | endCode
  /-- Any other element ends. -/
  | stop (element : String)
  | text (s : String)
  | code (s : String)
  | html (s : String)
  | inlineHtml (s : String)
  | softBreak
  | hardBreak
  | rule
  deriving DecidableEq, Repr

end HoverTips.Markdown
