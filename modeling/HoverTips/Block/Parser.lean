import HoverTips.Fence
import HoverTips.Token.Scan
import HoverTips.Tree.Walk

/-!
# Analyzing a block

Every block is scanned for registry names. When its fence tag asks for a flavor, the flavor's parser
runs as well and its analysis is laid over the scan's. A parser that cannot run, or whose walk
stops, is downgraded, so analyzing a block always has a result.

The trees come from an analyzer outside this library: for every grammar a function from sources, or
the reason why the grammar does not load.
-/

namespace HoverTips

/-- The trees of wrapped blocks, by grammar and source. A grammar that was built for a version of the
tree format that is not supported has that version in place of trees. -/
abbrev Trees := Grammar → Except Nat (String → Option Tree.Node)

/-- Why a parser could not run at all. -/
inductive ParserError where
  /-- The grammar was built for a version of the tree format that is not supported. -/
  | incompatibleGrammar (grammar : String) (version : Nat)
  deriving DecidableEq, Repr

/-- The oldest and the newest version of the tree format that grammars may be built for. -/
def grammarVersions : Nat × Nat := (13, 15)

def ParserError.message : ParserError → String
  | incompatibleGrammar grammar version =>
    "failed to load the " ++ grammar ++ " grammar: Incompatible language version " ++
      toString version ++ ". Expected minimum " ++ toString grammarVersions.1 ++ ", maximum " ++
      toString grammarVersions.2

/-- A parser for one family of fence tags. Faults of a block are part of its analysis; an error
means that the parser did not run. -/
structure LanguageParser where
  name : String
  capabilities : Capabilities
  parse : Registry → List Char → Except ParserError Analysis

/-- What the walk of a flavor finds in a block, given the block's tree. -/
def walkFlavor (r : Registry) (flavor : Flavor) (source : List Char) (tree? : Option Tree.Node) :
    Tree.Reading Tree.WalkResult :=
  match tree? with
  | some tree => Tree.walk r (Wrapped.ofSource source) flavor.capabilities.typeChecking tree
  | none => .error .noTree

def analyzeFlavor (r : Registry) (flavor : Flavor) (source : List Char) (tree? : Option Tree.Node) :
    Analysis :=
  match walkFlavor r flavor source tree? with
  | .ok found => .ofWalk flavor.name flavor.capabilities found.tokens found.errors
  | .error e => .downgraded flavor.name flavor.capabilities source e.message

/-- The parser of a flavor. A blank block has no tree and nothing in it; for any other, the flavor's
grammar has to load. -/
def Flavor.parser (trees : Trees) (flavor : Flavor) : LanguageParser where
  name := flavor.name
  capabilities := flavor.capabilities
  parse r source :=
    if Text.isBlank source then .ok (.ofWalk flavor.name flavor.capabilities [] [])
    else match trees flavor.grammar with
      | .error version => .error (.incompatibleGrammar flavor.name version)
      | .ok treeOf => .ok (analyzeFlavor r flavor source (treeOf (String.ofList source)))

def parserFor? (trees : Trees) (info : String) : Option LanguageParser :=
  (Flavor.ofInfo? info).map (Flavor.parser trees)

def analyzeWith (r : Registry) (source : String) (parser? : Option LanguageParser) : Analysis :=
  let chars := source.toList
  let scan := Analysis.ofScan (scanGlossary r chars)
  match parser? with
  | none => scan.hydrate r
  | some parser =>
    let walk := match parser.parse r chars with
      | .ok analysis => analysis
      | .error e => .downgraded parser.name parser.capabilities chars e.message
    (scan.merge walk).hydrate r

@[irreducible] def analyzeBlock (trees : Trees) (r : Registry) (source info : String) : Analysis :=
  analyzeWith r source (parserFor? trees info)

end HoverTips
