import HoverTips.Glossary.Definition
import HoverTips.Text.Expression

/-!
# The registry of definitions

A glossary collects one definition per name, in the order they were added. Only names that could
stand in code as one word are taken, and the first definition of a name wins, so a project can add
terms and never change a built-in one. A registry is a glossary that is complete, with the answer of
the engine to the search for its names.
-/

namespace HoverTips

/-- Names with their definitions, in the order they were added. -/
structure Glossary where
  entries : List (String × Definition)

namespace Glossary

def empty : Glossary := ⟨[]⟩

def lookup (g : Glossary) (name : String) : Option Definition := g.entries.lookup name

def size (g : Glossary) : Nat := g.entries.length

def isEmpty (g : Glossary) : Bool := g.entries.isEmpty

def isNameHead (c : Char) : Bool := c.isAlpha || c == '_'

def isNameTail (c : Char) : Bool := c.isAlpha || c.isDigit || c == '_'

/-- Whether a name is one word of ASCII letters, digits and underscores that does not start with a
digit. -/
def isName (name : String) : Bool :=
  match name.toList with
  | [] => false
  | c :: cs => isNameHead c && cs.all isNameTail

/-- Adds a definition, unless the name is no word or is defined already. -/
def insert (g : Glossary) (name : String) (d : Definition) : Glossary :=
  if isName name && (g.lookup name).isNone then ⟨g.entries ++ [(name, d)]⟩ else g

def insertAll (g : Glossary) (entries : List (String × Definition)) : Glossary :=
  entries.foldl (fun g (name, d) => g.insert name d) g

def insertTable (g : Glossary) (t : DefinitionTable) : Glossary := g.insertAll t.entries

/-- The names in the order they are tried in: the longer ones first, and those of one length by the
alphabet. -/
def alternatives (g : Glossary) : List (List Char) :=
  (g.entries.map (·.1.toList)).mergeSort fun a b =>
    decide (b.length < a.length ∨ a.length = b.length ∧ ¬b < a)

def expression (g : Glossary) : String :=
  let names := g.alternatives.map fun name => String.ofList (Text.escape name)
  Text.boundaryMark ++ "(?:" ++ "|".intercalate names ++ ")" ++ Text.boundaryMark

end Glossary

/-- A glossary whose names can be looked up, and searched for in texts if the engine takes the
search for them. -/
structure Registry extends Glossary where
  /-- Whether there is a search for the names. -/
  searchable : Bool

/-- The registry of a glossary. Without names there is nothing to search for. -/
def Glossary.build (engine : Text.Engine) (g : Glossary) : Registry where
  toGlossary := g
  searchable := !g.isEmpty && engine g.expression

end HoverTips
