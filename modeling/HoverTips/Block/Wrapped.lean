import HoverTips.Span

/-!
# Wrapped blocks

A block is parsed as the body of a function called at once, so statements, declarations and bare
expressions are all at home in it. Spans over the wrapped text map back to the source when they lie
inside it (`Wrapped.toSource?`); those that touch the wrapper have no place in the source.
-/

namespace HoverTips

def wrapperHead : List Char := "(() => \x7b\n".toList

def wrapperTail : List Char := "\n\x7d)();".toList

def wrapperOffset : Nat := 9

theorem byteLength_wrapperHead : Text.byteLength wrapperHead = wrapperOffset := by decide

/-- A source with the text that is parsed in its place. -/
structure Wrapped where
  source : List Char
  text : List Char
  text_eq : text = wrapperHead ++ source ++ wrapperTail

namespace Wrapped

def ofSource (source : List Char) : Wrapped := ⟨source, wrapperHead ++ source ++ wrapperTail, rfl⟩

/-- Where the source lies in the wrapped text. -/
def window (w : Wrapped) : Span := ⟨wrapperOffset, wrapperOffset + Text.byteLength w.source⟩

/-- The span of the source that a span of the wrapped text stands for. Empty spans, and spans that
reach into the wrapper, stand for none. -/
def toSource? (w : Wrapped) (s : Span) : Option Span :=
  if s.stop ≤ s.start ∨ s.start < w.window.start ∨ w.window.stop < s.stop then none
  else some ⟨s.start - wrapperOffset, s.stop - wrapperOffset⟩

/-- The span of the character that ends at an offset of the wrapped text. -/
def characterBefore? (w : Wrapped) (offset : Nat) : Option Span :=
  match Text.takeBytes? offset w.text with
  | some before => before.getLast?.map fun c => ⟨offset - c.utf8Size, offset⟩
  | none => none

/-- The span of the character that starts at an offset of the wrapped text. -/
def characterAfter? (w : Wrapped) (offset : Nat) : Option Span :=
  match Text.dropBytes? offset w.text with
  | some after => after.head?.map fun c => ⟨offset, offset + c.utf8Size⟩
  | none => none

/-- The span of the source that a report about a span of the wrapped text covers. A report about a
single place covers the character before it, or the one behind it at the start of the source. -/
def reportSpan? (w : Wrapped) (s : Span) : Option Span :=
  if s.start < s.stop then w.toSource? s
  else ((w.characterBefore? s.start).bind w.toSource?).or
    ((w.characterAfter? s.start).bind w.toSource?)

end Wrapped

end HoverTips
