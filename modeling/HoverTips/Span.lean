import HoverTips.Text.Offset

/-!
# Spans

A span is a half-open range of byte offsets. Over a text it selects the characters between its
ends, when it holds at least one and its ends lie between characters.
-/

namespace HoverTips

/-- The bytes from `start` up to and without `stop`. -/
structure Span where
  start : Nat
  stop : Nat
  deriving DecidableEq, Repr

namespace Span

def isEmpty (s : Span) : Bool := s.stop ≤ s.start

def select? (cs : List Char) (s : Span) : Option (List Char) :=
  if s.start < s.stop then (Text.cut cs s.start s.stop).toOption else none

/-- Reading order: the earlier start first, and of two with one start the longer. -/
def precedes (a b : Span) : Bool := a.start < b.start || (a.start == b.start && b.stop ≤ a.stop)

def meet? (a b : Span) : Option Span :=
  let start := max a.start b.start
  let stop := min a.stop b.stop
  if start < stop then some ⟨start, stop⟩ else none

end Span

end HoverTips
