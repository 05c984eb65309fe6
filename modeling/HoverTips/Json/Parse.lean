import HoverTips.Json

/-!
# Reading JSON

The value that a JSON text stands for. Numbers have to be whole and objects keep the order of their
members; a text that is no such value has none.
-/

namespace HoverTips.Json

def isBlank (c : Char) : Bool := c == ' ' || c == '\n' || c == '\r' || c == '\t'

def skipBlank (cs : List Char) : List Char := cs.dropWhile isBlank

def hexValue? (c : Char) : Option Nat :=
  if '0' ≤ c && c ≤ '9' then some (c.toNat - 48)
  else if 'a' ≤ c && c ≤ 'f' then some (c.toNat - 87)
  else if 'A' ≤ c && c ≤ 'F' then some (c.toNat - 55)
  else none

def hexNumber? (digits : List Char) : Option Nat :=
  digits.foldlM (fun n c => (n * 16 + ·) <$> hexValue? c) 0

/-- The character that two halves of a pair stand for. -/
def pairedChar? (high low : Nat) : Option Char :=
  if 0xD800 ≤ high ∧ high < 0xDC00 ∧ 0xDC00 ≤ low ∧ low < 0xE000 then
    some (Char.ofNat (0x10000 + (high - 0xD800) * 0x400 + (low - 0xDC00)))
  else none

/-- The character that a number stands for. Halves of pairs are none. -/
def singleChar? (n : Nat) : Option Char :=
  if 0xD800 ≤ n ∧ n < 0xE000 then none else some (Char.ofNat n)

def escaped? : Char → Option Char
  | '"' => some '"'
  | '\\' => some '\\'
  | '/' => some '/'
  | 'b' => some '\x08'
  | 'f' => some '\x0c'
  | 'n' => some '\n'
  | 'r' => some '\r'
  | 't' => some '\t'
  | _ => none

/-- The first character of a text inside quotes, and what follows it. -/
def readChar : List Char → Option (Char × List Char)
  | '\\' :: 'u' :: a :: b :: c :: d :: cs => do
    let n ← hexNumber? [a, b, c, d]
    match singleChar? n, cs with
    | some char, _ => return (char, cs)
    | none, '\\' :: 'u' :: e :: f :: g :: h :: more =>
      return (← pairedChar? n (← hexNumber? [e, f, g, h]), more)
    | none, _ => none
  | '\\' :: c :: cs => (·, cs) <$> escaped? c
  | c :: cs => if c < ' ' || c == '\\' then none else some (c, cs)
  | [] => none

/-- A text up to its closing quote, and what follows it. The fuel is the number of characters. -/
def readQuoted : Nat → List Char → Option (List Char × List Char)
  | _, '"' :: cs => some ([], cs)
  | 0, _ => none
  | fuel + 1, cs => do
    let (c, rest) ← readChar cs
    let (chars, rest) ← readQuoted fuel rest
    return (c :: chars, rest)

def readNumber (cs : List Char) : Option (Int × List Char) :=
  let (sign, unsigned) : Int × List Char := match cs with
    | '-' :: rest => (-1, rest)
    | _ => (1, cs)
  let digits := unsigned.takeWhile Char.isDigit
  let rest := unsigned.dropWhile Char.isDigit
  let isPlain := digits.length == 1 || digits.head?.any (· != '0')
  if isPlain && !rest.head?.any (fun c => c == '.' || c == 'e' || c == 'E') then
    some (sign * (digits.foldl (fun n c => n * 10 + (c.toNat - 48)) 0 : Nat), rest)
  else none

mutual

/-- A value at the front of a text. The fuel bounds the readers that call each other; twice the
length of the text is enough. -/
def readValue : Nat → List Char → Option (Json × List Char)
  | 0, _ => none
  | fuel + 1, cs =>
    match cs with
    | 'n' :: 'u' :: 'l' :: 'l' :: rest => some (.null, rest)
    | 't' :: 'r' :: 'u' :: 'e' :: rest => some (.bool true, rest)
    | 'f' :: 'a' :: 'l' :: 's' :: 'e' :: rest => some (.bool false, rest)
    | '"' :: rest => do
      let (chars, rest) ← readQuoted rest.length rest
      return (.str (String.ofList chars), rest)
    | '[' :: rest =>
      match skipBlank rest with
      | ']' :: rest => some (.arr [], rest)
      | rest => (fun (items, rest) => (.arr items, rest)) <$> readItems fuel rest
    | '\x7b' :: rest =>
      match skipBlank rest with
      | '\x7d' :: rest => some (.obj [], rest)
      | rest => (fun (members, rest) => (.obj members, rest)) <$> readMembers fuel rest
    | _ => (fun (n, rest) => (.int n, rest)) <$> readNumber cs

def readItems : Nat → List Char → Option (List Json × List Char)
  | 0, _ => none
  | fuel + 1, cs => do
    let (item, rest) ← readValue fuel (skipBlank cs)
    match skipBlank rest with
    | ',' :: rest =>
      let (items, rest) ← readItems fuel rest
      return (item :: items, rest)
    | ']' :: rest => return ([item], rest)
    | _ => none

def readMembers : Nat → List Char → Option (List (String × Json) × List Char)
  | 0, _ => none
  | fuel + 1, cs => do
    match skipBlank cs with
    | '"' :: rest =>
      let (key, rest) ← readQuoted rest.length rest
      match skipBlank rest with
      | ':' :: rest =>
        let (value, rest) ← readValue fuel (skipBlank rest)
        let member := (String.ofList key, value)
        match skipBlank rest with
        | ',' :: rest =>
          let (members, rest) ← readMembers fuel rest
          return (member :: members, rest)
        | '\x7d' :: rest => return ([member], rest)
        | _ => none
      | _ => none
    | _ => none

end

def parse? (text : String) : Option Json := do
  let cs := text.toList
  let (value, rest) ← readValue (2 * cs.length + 2) (skipBlank cs)
  if (skipBlank rest).isEmpty then some value else none

/-! ## Looking into values -/

def asString? : Json → Option String
  | str s => some s
  | _ => none

def asNat? : Json → Option Nat
  | int (.ofNat n) => some n
  | _ => none

def asItems? : Json → Option (List Json)
  | arr items => some items
  | _ => none

/-- The value of a key; the last one counts. -/
def get? (key : String) : Json → Option Json
  | obj members => members.reverse.lookup key
  | _ => none

end HoverTips.Json
