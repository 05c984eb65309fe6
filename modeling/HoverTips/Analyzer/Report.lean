import HoverTips.Analyzer
import HoverTips.Json.Parse

/-!
# Reports of the analyzer

An analyzer that runs apart hands over its findings as one JSON value. `trees` lists wrapped sources
by grammar, each with the rows of its tree in pre-order: depth, kind, flags, start, end, and the
fields if there are any. `markdown` lists texts with their events.
-/

namespace HoverTips

/-- A tree with the grammar and the source it belongs to. -/
structure TreeEntry where
  grammar : String
  source : String
  root : Tree.Node

/-- A markdown text with its events. -/
structure MarkdownEntry where
  text : String
  events : List Markdown.Event

/-- What the analyzer found. -/
structure Report where
  trees : List TreeEntry
  markdown : List MarkdownEntry

def Json.text? (key : String) (j : Json) : Option String := do (← j.get? key).asString?

/-- The items of a field of an object; without the field there are none. -/
def Json.itemsOrNone? (key : String) (j : Json) : Option (List Json) :=
  match j.get? key with
  | none => some []
  | some items => items.asItems?

namespace Report

/-- A row of a tree: a depth and the label of a node. -/
def row? (j : Json) : Option (Nat × Tree.Label) := do
  let (cells, fields) ← match ← j.asItems? with
    | [depth, kind, flags, start, stop] => some ([depth, kind, flags, start, stop], [])
    | [depth, kind, flags, start, stop, fields] => do
      some ([depth, kind, flags, start, stop], ← (← fields.asItems?).mapM Json.asString?)
    | _ => none
  match cells with
  | [depth, kind, flags, start, stop] =>
    let flags := (← flags.asString?).toList
    return (← depth.asNat?,
      { kind := ← kind.asString?
        named := flags.contains 'n'
        isError := flags.contains 'e'
        isMissing := flags.contains 'm'
        span := ⟨← start.asNat?, ← stop.asNat?⟩
        fields })
  | _ => none

/-- The tree of an entry; one without rows is no entry. -/
def tree? (j : Json) : Option (Option TreeEntry) := do
  let rows ← (← (← j.get? "nodes").asItems?).mapM row?
  let grammar ← j.text? "grammar"
  let source ← j.text? "source"
  return (Tree.Node.ofRows? rows).map fun root => ⟨grammar, source, root⟩

def bareEvent? : String → Option Markdown.Event
  | "indented" => some .startIndented
  | "soft" => some .softBreak
  | "hard" => some .hardBreak
  | "rule" => some .rule
  | _ => none

def textEvent? (s : String) : String → Option Markdown.Event
  | "fenced" => some (.startFenced s)
  | "start" => some (.start s)
  | "end" => some (if s == "CodeBlock" then .endCode else .stop s)
  | "text" => some (.text s)
  | "code" => some (.code s)
  | "html" => some (.html s)
  | "inline-html" => some (.inlineHtml s)
  | _ => none

/-- An event: its name, and its text if it has one. -/
def event? (j : Json) : Option Markdown.Event := do
  match ← j.asItems? with
  | [name] => bareEvent? (← name.asString?)
  | [name, text] => textEvent? (← text.asString?) (← name.asString?)
  | _ => none

def markdown? (j : Json) : Option MarkdownEntry := do
  return ⟨← j.text? "text", ← (← (← j.get? "events").asItems?).mapM event?⟩

def ofJson? (j : Json) : Option Report := do
  let trees ← (← j.itemsOrNone? "trees").mapM tree?
  return ⟨trees.filterMap id, ← (← j.itemsOrNone? "markdown").mapM markdown?⟩

/-- The report as an analyzer, whose grammars all load and whose engine takes every expression. Texts
that are not in it have no trees and no events. -/
def analyzer (r : Report) : Analyzer where
  trees grammar := .ok fun source =>
    (r.trees.find? fun e => e.grammar == grammar.name && e.source == source).map (·.root)
  events markdown :=
    ((r.markdown.find? fun e => e.text == markdown).map (·.events)).getD []
  engine _ := true

end Report

end HoverTips
