import HoverTips.Token.Order

/-!
# What is known about a block

An analysis is what the scan or a language parser found in one block: tokens, errors, and which
parsers ran. A block is valid when no error was found; every way to make an analysis sets this
beside the errors. A parser that could not finish is downgraded: its block keeps the scan's tokens,
and gets one error over the whole source.
-/

namespace HoverTips

/-- The optional checks that a parser runs. -/
structure Capabilities where
  jsx : Bool
  typeChecking : Bool
  deriving DecidableEq, Repr

/-- What was found in a block. -/
structure Analysis where
  tokens : List Token
  errors : List Token
  isValid : Bool
  /-- Whether no language parser finished. -/
  usesFallback : Bool
  /-- The parsers that ran, in order. -/
  parsers : List String
  capabilities : Capabilities
  /-- Failures of a parser itself; they go to the metrics and not into records. -/
  warnings : List String
  deriving DecidableEq, Repr

namespace Analysis

def scanName : String := "fallback"

def ofScan (tokens : List Token) : Analysis where
  tokens
  errors := []
  isValid := true
  usesFallback := true
  parsers := [scanName]
  capabilities := ⟨false, false⟩
  warnings := []

def ofWalk (parser : String) (capabilities : Capabilities) (tokens errors : List Token) :
    Analysis where
  tokens
  errors
  isValid := errors.isEmpty
  usesFallback := false
  parsers := [parser]
  capabilities
  warnings := []

/-- The analysis of a language parser that could not finish: one error over the whole source, which
an empty source has no room for, and a warning. -/
def downgraded (parser : String) (capabilities : Capabilities) (source : List Char)
    (reason : String) : Analysis :=
  let errors := (Token.errorAt? source ⟨0, Text.byteLength source⟩ reason).toList
  { tokens := []
    errors
    isValid := errors.isEmpty
    usesFallback := true
    parsers := [parser]
    capabilities
    warnings := [parser ++ " parser failed: " ++ reason] }

def merge (scan walk : Analysis) : Analysis :=
  let errors := sortTokens walk.errors
  { tokens := mergeTokens scan.tokens walk.tokens
    errors
    isValid := errors.isEmpty
    usesFallback := walk.usesFallback
    parsers := scan.parsers ++ walk.parsers
    capabilities := walk.capabilities
    warnings := scan.warnings ++ walk.warnings }

/-- Gives every token without hover content what the registry knows about its text. -/
def hydrate (r : Registry) (a : Analysis) : Analysis :=
  { a with tokens := a.tokens.map (Token.hydrate r) }

/-- The record of an analysis; warnings are not part of it. -/
def toJson (a : Analysis) : Json :=
  .obj [("tokens", .arr (a.tokens.map Token.toJson)), ("errors", .arr (a.errors.map Token.toJson)),
    ("isValid", .bool a.isValid), ("usesFallback", .bool a.usesFallback),
    ("parsers", Json.strings a.parsers),
    ("capabilities", .obj [("jsx", .bool a.capabilities.jsx),
      ("typeChecking", .bool a.capabilities.typeChecking)])]

end Analysis

end HoverTips
