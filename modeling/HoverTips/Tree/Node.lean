import HoverTips.Span

/-!
# Concrete trees

The tree of a block as a grammar produces it: every node has a kind, a span over the wrapped text
and the fields it fills in its parent. `Node.visits` lists the nodes in pre-order, each with its
ancestors, and `Node.ofRows` builds the tree back from such a list with depths.
-/

namespace HoverTips.Tree

/-- What a node says about itself. -/
structure Label where
  kind : String
  /-- Named nodes stand for rules of the grammar, the others for its literal tokens. -/
  named : Bool
  /-- The node covers text that the grammar could not place. -/
  isError : Bool
  /-- The node stands for a token that the text lacks. -/
  isMissing : Bool
  span : Span
  /-- The fields of the parent for which this is the first child. -/
  fields : List String
  deriving DecidableEq, Repr

/-- A node of the tree with its children in order. -/
inductive Node where
  | mk (label : Label) (children : List Node)

namespace Node

def label : Node → Label
  | mk l _ => l

def children : Node → List Node
  | mk _ cs => cs

def kind (n : Node) : String := n.label.kind

def span (n : Node) : Span := n.label.span

def isNamed (n : Node) : Bool := n.label.named

def fills (n : Node) (field : String) : Bool := n.label.fields.contains field

end Node

def field? (name : String) (children : List Node) : Option Node := children.find? (·.fills name)

def named (children : List Node) : List Node := children.filter (·.isNamed)

def firstNamed? (children : List Node) : Option Node := children.find? (·.isNamed)

def hasKind (kind : String) (children : List Node) : Bool := children.any (·.kind == kind)

/-- A node as the walk meets it: with its ancestors, the parent first. -/
structure Visit where
  node : Node
  ancestors : List Node

namespace Visit

def parent? (v : Visit) : Option Node := v.ancestors.head?

end Visit

mutual

def Node.visits (ancestors : List Node) : Node → List Visit
  | .mk l cs => ⟨.mk l cs, ancestors⟩ :: visitsAll (.mk l cs :: ancestors) cs

/-- The nodes of a list of siblings and everything below them in pre-order. -/
def visitsAll (ancestors : List Node) : List Node → List Visit
  | [] => []
  | c :: cs => c.visits ancestors ++ visitsAll ancestors cs

end

/-- The tree of a pre-order list of labels with their depths. Read from the end: a row takes the
deeper trees right behind it as its children. -/
def Node.forest (rows : List (Nat × Label)) : List (Nat × Node) :=
  rows.foldr
    (fun (depth, label) later =>
      let below := later.takeWhile (depth < ·.1)
      (depth, .mk label (below.map (·.2))) :: later.dropWhile (depth < ·.1))
    []

def Node.ofRows? (rows : List (Nat × Label)) : Option Node := (Node.forest rows).head?.map (·.2)

end HoverTips.Tree
