import HoverTips.Text.Unicode

/-!
# Character classes

Three classes decide where words begin and end: white space separates the words of a fence or of a
type's text, word characters bound the names in a block, and alphanumeric characters make up the
identifier of a trigger. ASCII is decided without the tables.
-/

namespace HoverTips.Text

open Unicode

/-- White space: the property White_Space. -/
def isSpace (c : Char) : Bool :=
  if c.toNat < 0x80 then c == ' ' || (9 ≤ c.toNat && c.toNat ≤ 13)
  else inRanges whiteSpace c.toNat

def isAsciiAlphanumeric (c : Char) : Bool := c.isAlpha || c.isDigit

/-- Letters and numbers of any script: Alphabetic, or of category N. -/
def isAlphanumeric (c : Char) : Bool :=
  if c.toNat < 0x80 then isAsciiAlphanumeric c
  else inRanges alphabetic c.toNat || inRanges number c.toNat

/-- Word characters: Alphabetic, marks, decimal digits, connectors and join controls. A number that
is no decimal digit, such as a superscript, is alphanumeric without being a word character. -/
def isWord (c : Char) : Bool :=
  if c.toNat < 0x80 then isAsciiAlphanumeric c || c == '_'
  else inRanges alphabetic c.toNat || inRanges mark c.toNat || inRanges decimalDigit c.toNat ||
    inRanges connector c.toNat || inRanges joinControl c.toNat

/-- Whether a word begins or ends between two neighbours; no neighbour is no word character. -/
def isWordBoundary (before after : Option Char) : Bool := before.any isWord != after.any isWord

end HoverTips.Text
