import HoverTips.Text.CharClass

/-!
# Paths in settings

A path in a settings file may start with a tilde for the home directory and may name variables of
the environment, as `$NAME`, `${NAME}` or `${NAME:-default}`. A path that names a
variable that is not set, and gives no default for it, stays as it was written.
-/

namespace HoverTips

/-- What paths in settings may refer to. -/
structure Environment where
  home : String
  valueOf? : String → Option String

namespace Settings

def isVariableChar (c : Char) : Bool := Text.isAlphanumeric c || c == '_'

/-- Splits at the first colon with a hyphen behind it: what stands before, and what stands behind if
there is one. -/
def splitDefault : List Char → List Char × Option (List Char)
  | ':' :: '-' :: behind => ([], some behind)
  | c :: cs => (c :: (splitDefault cs).1, (splitDefault cs).2)
  | [] => ([], none)

/-- The value of a variable in braces. A default needs a name in front of it. -/
def bracedValue? (env : Environment) (inside : List Char) : Option (List Char) :=
  match splitDefault inside with
  | (name@(_ :: _), some default) =>
    some (((env.valueOf? (String.ofList name)).map String.toList).getD default)
  | _ => (env.valueOf? (String.ofList inside)).map String.toList

theorem length_dropWhile_le (p : Char → Bool) (cs : List Char) :
    (cs.dropWhile p).length ≤ cs.length :=
  (List.dropWhile_suffix p).length_le

/-- A text with the values of its variables in their places. None if one of them has no value. -/
def substitute? (env : Environment) : List Char → Option (List Char)
  | [] => some []
  | '$' :: '\x7b' :: cs =>
    if cs.contains '\x7d' then do
      let value ← bracedValue? env (cs.takeWhile (· != '\x7d'))
      return value ++ (← substitute? env (cs.dropWhile (· != '\x7d')).tail)
    else (['$', '\x7b'] ++ ·) <$> substitute? env cs
  | '$' :: '$' :: cs => ('$' :: ·) <$> substitute? env cs
  | '$' :: c :: cs =>
    if isVariableChar c then do
      let value ← env.valueOf? (String.ofList (c :: cs.takeWhile isVariableChar))
      return value.toList ++ (← substitute? env (cs.dropWhile isVariableChar))
    else ('$' :: ·) <$> substitute? env (c :: cs)
  | c :: cs => (c :: ·) <$> substitute? env cs
termination_by cs => cs.length
decreasing_by
  all_goals
    have ends := length_dropWhile_le (· != '\x7d') cs
    have named := length_dropWhile_le isVariableChar cs
    simp only [List.length_cons, List.length_tail]
    omega

/-- A path with the home directory in place of a tilde that is its first step. -/
def expandTilde (env : Environment) : List Char → List Char
  | ['~'] => env.home.toList
  | '~' :: '/' :: cs => env.home.toList ++ '/' :: cs
  | cs => cs

/-- A path as it is meant. A tilde that came out of a variable stays. -/
def expandPath (env : Environment) (path : String) : String :=
  match substitute? env path.toList with
  | none => path
  | some cs =>
    String.ofList (if path.toList.head? == some '~' then expandTilde env cs else cs)

end Settings

end HoverTips
