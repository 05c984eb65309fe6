import HoverTips.Fence
import HoverTips.Markdown.Event

/-!
# Pages

A page splits into its fenced blocks and its prose. Text inside a code block of either kind is no
prose, nor is inline code or markup; breaks and the ends of elements separate the prose on their two
sides.
-/

namespace HoverTips.Markdown

/-- A fenced block of a page. -/
structure CodeBlock where
  /-- The page's path, a number sign and the block's place among the blocks of the page. -/
  id : String
  /-- The tag of the fence, empty when it has none. -/
  language : String
  source : String
  deriving DecidableEq, Repr

def CodeBlock.ofFence (id info source : String) : CodeBlock := ⟨id, fenceTag info, source⟩

/-- Where in a page the events are. -/
inductive Region where
  | prose
  /-- Inside a fenced block, with the text of it so far. -/
  | fenced (info source : String)
  | indented
  deriving DecidableEq, Repr

/-- What the events so far gave. -/
structure Extraction where
  region : Region
  blocks : List CodeBlock
  prose : String
  deriving DecidableEq, Repr

namespace Extraction

def initial : Extraction := ⟨.prose, [], ""⟩

/-- The prose with a line break behind it, unless it is empty or ends in one. -/
def breakLine (prose : String) : String :=
  match prose.toList.getLast? with
  | none => prose
  | some c => if c == '\n' then prose else prose.push '\n'

/-- A code block ends. A fenced one is kept, without the line break its last line ends in. -/
def closeCode (page : String) (x : Extraction) : Extraction :=
  match x.region with
  | .fenced info source =>
    let id := page ++ "#" ++ toString x.blocks.length
    { x with
      region := .prose
      blocks := x.blocks ++ [.ofFence id info (Text.dropEnding "\n" source)] }
  | _ => { x with region := .prose }

/-- Text belongs to the block it stands in, or else to the prose. -/
def addText (s : String) (x : Extraction) : Extraction :=
  match x.region with
  | .fenced info source => { x with region := .fenced info (source ++ s) }
  | .indented => x
  | .prose => { x with prose := x.prose ++ s }

def step (page : String) (x : Extraction) : Event → Extraction
  | .startFenced info => { x with region := .fenced info "" }
  | .startIndented => { x with region := .indented }
  | .endCode => x.closeCode page
  | .text s => x.addText s
  | .softBreak => { x with prose := x.prose.push ' ' }
  | .hardBreak | .stop _ => { x with prose := breakLine x.prose }
  | .start _ | .code _ | .html _ | .inlineHtml _ | .rule => x

end Extraction

def extract (page : String) (events : List Event) : Extraction :=
  events.foldl (Extraction.step page) .initial

/-- A page of the docs tree. -/
structure Page where
  /-- The path below the root of the docs tree. -/
  path : String
  blocks : List CodeBlock
  prose : String
  deriving DecidableEq, Repr

def Page.ofEvents (path : String) (events : List Event) : Page :=
  let extracted := extract path events
  ⟨path, extracted.blocks, extracted.prose⟩

end HoverTips.Markdown
