/-!
# Exclude patterns

A pattern is matched against the whole relative path of a page. A star and a question mark match
slashes like any other character; two stars stand for whole directories.
-/

namespace HoverTips.Files

/-- A member of a bracketed set. -/
inductive CharSet where
  | single (c : Char)
  | range (first last : Char)
  deriving DecidableEq, Repr

def CharSet.contains (c : Char) : CharSet → Bool
  | single d => c == d
  | range first last => first ≤ c && c ≤ last

/-- A part of a pattern. -/
inductive GlobPart where
  | literal (c : Char)
  | anyChar
  | anySequence
  /-- Any number of whole directories. -/
  | anyDirectories
  | oneOf (sets : List CharSet)
  | noneOf (sets : List CharSet)
  deriving DecidableEq, Repr

/-- Why a pattern is none. -/
inductive GlobFault where
  | stars
  | starsInName
  | bracket
  deriving DecidableEq, Repr

/-- A fault of a pattern and the character it was found at. -/
structure GlobError where
  position : Nat
  fault : GlobFault
  deriving DecidableEq, Repr

def GlobFault.message : GlobFault → String
  | stars => "wildcards are either regular `*` or recursive `**`"
  | starsInName => "recursive wildcards must form a single path component"
  | bracket => "invalid range pattern"

def GlobError.message (e : GlobError) : String :=
  "Pattern syntax error near position " ++ toString e.position ++ ": " ++ e.fault.message

def charSets : List Char → List CharSet
  | first :: '-' :: last :: rest => .range first last :: charSets rest
  | c :: rest => .single c :: charSets rest
  | [] => []

/-- A bracketed set behind its opening bracket: the part, and how many characters it takes. The
first character of a set may be a closing bracket. -/
def bracketed? : List Char → Option (GlobPart × Nat)
  | '!' :: c :: rest =>
    let members := rest.takeWhile (· != ']')
    if members.length < rest.length then
      some (.noneOf (charSets (c :: members)), members.length + 3)
    else none
  | c :: rest =>
    let members := rest.takeWhile (· != ']')
    if c != '!' && members.length < rest.length then
      some (.oneOf (charSets (c :: members)), members.length + 2)
    else none
  | [] => none

/-- Two stars are a part when they stand between slashes or at an end of the pattern. Answers how
many characters behind them belong to the part. `before` is the character in front of them. -/
def directoriesPart (position : Nat) (before : Option Char) (rest : List Char) :
    Except GlobError Nat :=
  if before.all (· == '/') then
    match rest.head? with
    | none => .ok 0
    | some '/' => .ok 1
    | some _ => .error ⟨position + 2, .starsInName⟩
  else .error ⟨position - 1, .starsInName⟩

/-- Adds the part for whole directories. A second one right behind a first adds nothing, unless the
first opens the pattern. -/
def addDirectories (parts : List GlobPart) : List GlobPart :=
  match parts with
  | .anyDirectories :: _ :: _ => parts
  | _ => .anyDirectories :: parts

/-- Reads the parts of a pattern from a position on, behind the parts read so far, the latest first.
The fuel is the number of characters left. -/
def readGlob (position : Nat) (before : Option Char) (parts : List GlobPart) :
    Nat → List Char → Except GlobError (List GlobPart)
  | 0, _ => .ok parts.reverse
  | _ + 1, [] => .ok parts.reverse
  | fuel + 1, c :: cs =>
    match c with
    | '?' => readGlob (position + 1) (some c) (.anyChar :: parts) fuel cs
    | '*' =>
      let stars := (c :: cs).takeWhile (· == '*')
      let rest := (c :: cs).dropWhile (· == '*')
      match stars.length with
      | 1 => readGlob (position + 1) (some c) (.anySequence :: parts) fuel rest
      | 2 => do
        let taken ← directoriesPart position before rest
        readGlob (position + 2 + taken) (some (if taken = 0 then '*' else '/'))
          (addDirectories parts) fuel (rest.drop taken)
      | _ => .error ⟨position + 2, .stars⟩
    | '[' =>
      match bracketed? cs with
      | some (part, taken) =>
        readGlob (position + 1 + taken) (some ']') (part :: parts) fuel (cs.drop taken)
      | none => .error ⟨position, .bracket⟩
    | _ => readGlob (position + 1) (some c) (.literal c :: parts) fuel cs

/-- A pattern for the paths of pages. -/
structure Glob where
  parts : List GlobPart
  deriving DecidableEq, Repr

def Glob.ofString (s : String) : Except GlobError Glob :=
  Glob.mk <$> readGlob 0 none [] s.toList.length s.toList

/-- Whether a character is matched by a part that stands for one character. -/
def GlobPart.matchesChar (c : Char) : GlobPart → Bool
  | literal d => c == d
  | anyChar => true
  | oneOf sets => sets.any (CharSet.contains c)
  | noneOf sets => !sets.any (CharSet.contains c)
  | anySequence | anyDirectories => false

def anyEnd (test : List Char → Bool) : List Char → Bool
  | [] => test []
  | c :: cs => test (c :: cs) || anyEnd test cs

/-- Whether what stands behind some slash of a text, or its empty end, passes a test. -/
def anyBelow (test : List Char → Bool) : List Char → Bool
  | [] => test []
  | c :: cs => (c == '/' && test cs) || anyBelow test cs

def matchParts : List GlobPart → List Char → Bool
  | [], text => text.isEmpty
  | .anySequence :: parts, text => anyEnd (matchParts parts) text
  | .anyDirectories :: parts, text => matchParts parts text || anyBelow (matchParts parts) text
  | part :: parts, text =>
    match text with
    | [] => false
    | c :: cs => part.matchesChar c && matchParts parts cs

def Glob.accepts (g : Glob) (path : String) : Bool := matchParts g.parts path.toList

end HoverTips.Files
