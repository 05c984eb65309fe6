import HoverTips.Token

/-!
# Merging tokens

The tokens of a language walk take precedence over the glossary scan: where both have a token over
the same span, the walk's is kept. Overlaps that differ are all kept. The merged tokens stand in
reading order, and tokens over one span keep the order they came in.
-/

namespace HoverTips

/-- The tokens in reading order of their spans; tokens over one span stay in order. -/
def sortTokens (tokens : List Token) : List Token :=
  tokens.mergeSort fun a b => a.span.precedes b.span

/-- Whether some token lies exactly over a span. -/
def claims (tokens : List Token) (s : Span) : Bool := tokens.any (·.span == s)

/-- The walk's tokens with those of the scan over spans the walk has no token for. -/
def mergeTokens (scan walk : List Token) : List Token :=
  sortTokens (walk ++ scan.filter fun t => !claims walk t.span)

end HoverTips
