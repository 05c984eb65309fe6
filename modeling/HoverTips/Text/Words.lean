import HoverTips.Text.CharClass

/-!
# Runs of characters

`runsAt` lists the maximal runs of a class with their byte offsets: words for the glossary scan,
fields between white space for fence tags and for compacted type text.
-/

namespace HoverTips.Text

/-- The run that starts at the front (maybe empty), and the runs after it with their offsets. -/
def splitRuns (p : Char → Bool) : Nat → List Char → List Char × List (Nat × List Char)
  | _, [] => ([], [])
  | offset, c :: cs =>
    let (run, rest) := splitRuns p (offset + c.utf8Size) cs
    if p c then (c :: run, rest)
    else ([], if run.isEmpty then rest else (offset + c.utf8Size, run) :: rest)

/-- The maximal runs of characters in `p`, each with the offset it starts at; the text itself starts
at `offset`. -/
def runsAt (p : Char → Bool) (offset : Nat) (cs : List Char) : List (Nat × List Char) :=
  let (run, rest) := splitRuns p offset cs
  if run.isEmpty then rest else (offset, run) :: rest

/-- The maximal runs of characters in `p`. -/
def runs (p : Char → Bool) (cs : List Char) : List (List Char) := (runsAt p 0 cs).map (·.2)

def fields (cs : List Char) : List (List Char) := runs (!isSpace ·) cs

/-- The text from its first character outside `p`. -/
def trimStartOf (p : Char → Bool) (cs : List Char) : List Char := cs.dropWhile p

/-- The text up to its last character outside `p`. -/
def trimEndOf (p : Char → Bool) (cs : List Char) : List Char := (cs.reverse.dropWhile p).reverse

def trim (cs : List Char) : List Char := trimEndOf isSpace (trimStartOf isSpace cs)

def isBlank (cs : List Char) : Bool := cs.all isSpace

/-- Every stretch of white space as one space, and none at the ends. -/
def compact (s : String) : String :=
  " ".intercalate ((fields s.toList).map String.ofList)

def dropEnding (ending : String) (s : String) : String :=
  if ending.toList.isSuffixOf s.toList then
    String.ofList (s.toList.take (s.toList.length - ending.toList.length))
  else s

end HoverTips.Text
