/-!
# JSON

Values with their object keys in written order, and the indented text of side-cars and metrics
files: two spaces a level, one member a line, nothing between the brackets of an empty value.
-/

namespace HoverTips

/-- A JSON value. Numbers are whole; fractions are written as text by those who need them. -/
inductive Json where
  | null
  | bool (b : Bool)
  | int (n : Int)
  | str (s : String)
  | arr (items : List Json)
  | obj (members : List (String × Json))

namespace Json

def nat (n : Nat) : Json := .int n

def strings (ss : List String) : Json := .arr (ss.map .str)

/-- A member that is left out when there is no value. -/
def member? (key : String) (value : Option Json) : List (String × Json) :=
  match value with
  | some v => [(key, v)]
  | none => []

def stringsMember? (key : String) (ss : List String) : List (String × Json) :=
  if ss.isEmpty then [] else [(key, strings ss)]

def hexDigit (n : Nat) : Char := if n < 10 then Char.ofNat (48 + n) else Char.ofNat (87 + n)

/-- A character inside quotes. Only the quote, the backslash and the control characters below
U+0020 are escaped. -/
def escapeChar (c : Char) : List Char :=
  match c.toNat with
  | 0x22 => ['\\', '"']
  | 0x5C => ['\\', '\\']
  | 0x08 => ['\\', 'b']
  | 0x09 => ['\\', 't']
  | 0x0A => ['\\', 'n']
  | 0x0C => ['\\', 'f']
  | 0x0D => ['\\', 'r']
  | n => if n < 0x20 then ['\\', 'u', '0', '0', hexDigit (n / 16), hexDigit (n % 16)] else [c]

def quote (s : String) : String := String.ofList ('"' :: s.toList.flatMap escapeChar ++ ['"'])

def newline (depth : Nat) : String := String.ofList ('\n' :: List.replicate (2 * depth) ' ')

mutual

/-- The text of a value whose brackets stand at `depth`. -/
def render (depth : Nat) : Json → String
  | .null => "null"
  | .bool b => if b then "true" else "false"
  | .int n => toString n
  | .str s => quote s
  | .arr [] => "[]"
  | .arr (item :: items) =>
    "[" ++ newline (depth + 1) ++ render (depth + 1) item ++ renderItems (depth + 1) items ++
      newline depth ++ "]"
  | .obj [] => "\x7b\x7d"
  | .obj ((key, value) :: members) =>
    "\x7b" ++ newline (depth + 1) ++ quote key ++ ": " ++ render (depth + 1) value ++
      renderMembers (depth + 1) members ++ newline depth ++ "\x7d"

def renderItems (depth : Nat) : List Json → String
  | [] => ""
  | item :: items => "," ++ newline depth ++ render depth item ++ renderItems depth items

def renderMembers (depth : Nat) : List (String × Json) → String
  | [] => ""
  | (key, value) :: members =>
    "," ++ newline depth ++ quote key ++ ": " ++ render depth value ++ renderMembers depth members

end

/-- The text of a JSON file: the indented value and a final line break. -/
def fileText (j : Json) : String := j.render 0 ++ "\n"

end Json

end HoverTips
