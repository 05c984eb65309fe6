import Mathlib.Algebra.Order.Field.Rat
import Mathlib.Data.List.Infix
import Mathlib.Data.Nat.Digits.Defs
import HoverTips.Tree.Literal

/-! # Values of literals

What a literal stands for when the block runs, whatever it looks like: the number
that is meant by any of its spellings, and the contents of a string without its
quotes and escapes. A text that strict code refuses stands for nothing, and so does a
template with a substitution. -/

namespace HoverTips.Tree

/-- A value of the language. A string is its UTF-16 units, and a number is what its digits
say exactly. A running program has the double next to it. -/
inductive Value where
  | number (value : ℚ)
  | bigint (value : ℤ)
  | string (units : List Nat)
  | boolean (value : Bool)
  | null
  | undefined
  deriving DecidableEq

/-! ## Numbers -/

/-- The value of a digit, letters in either case. -/
def digit? (base : Nat) (c : Char) : Option Nat :=
  let value :=
    if '0' ≤ c ∧ c ≤ '9' then c.toNat - 48
    else if 'a' ≤ c ∧ c ≤ 'z' then c.toNat - 87
    else if 'A' ≤ c ∧ c ≤ 'Z' then c.toNat - 55
    else base
  if value < base then some value else none

/-- The digits of a text; one separator may stand between two of them. -/
def digits? (base : Nat) (cs : List Char) : Option (List Nat) :=
  if cs.head? = some '_' ∨ cs.getLast? = some '_' ∨ ['_', '_'] <:+: cs then none
  else (cs.filter (· ≠ '_')).mapM (digit? base)

/-- The number that digits stand for, the highest one first. -/
def fromDigits (base : Nat) (ds : List Nat) : Nat := Nat.ofDigits base ds.reverse

/-- A whole number in a base. -/
def natural? (base : Nat) (cs : List Char) : Option Nat := do
  let ds ← digits? base cs
  if ds = [] then none else some (fromDigits base ds)

/-- A whole number in the base that it names, or else in base ten. A zero in front of
other digits names none. -/
def whole? : List Char → Option Nat
  | '0' :: c :: cs =>
    match c with
    | 'x' | 'X' => natural? 16 cs
    | 'o' | 'O' => natural? 8 cs
    | 'b' | 'B' => natural? 2 cs
    | _ => none
  | cs => natural? 10 cs

/-- An exponent with its letter and its sign, zero when there is none. -/
def exponent? : List Char → Option Int
  | [] => some 0
  | _ :: '+' :: cs => (natural? 10 cs).map Int.ofNat
  | _ :: '-' :: cs => (natural? 10 cs).map fun n => -n
  | _ :: cs => (natural? 10 cs).map Int.ofNat

/-- The letter of an exponent ends the digits before it. -/
def inMantissa (c : Char) : Bool := c != 'e' && c != 'E'

def beforePoint (c : Char) : Bool := c != '.'

/-- A number in base ten, with a point and an exponent where it has them. -/
def decimal? (cs : List Char) : Option ℚ := do
  let mantissa := cs.takeWhile inMantissa
  let whole ← digits? 10 (mantissa.takeWhile beforePoint)
  let fraction ← digits? 10 ((mantissa.dropWhile beforePoint).drop 1)
  let exponent ← exponent? (cs.dropWhile inMantissa)
  if whole ++ fraction = [] ∨ whole.head? = some 0 ∧ whole ≠ [0] then none
  else some (fromDigits 10 (whole ++ fraction) * 10 ^ (exponent - fraction.length))

/-- What a number without a sign stands for; an `n` behind it makes it a bigint. -/
def unsigned? (cs : List Char) : Option Value :=
  if cs.getLast? = some 'n' then (whole? cs.dropLast).map (.bigint ·)
  else (decimal? cs <|> (whole? cs).map Nat.cast).map .number

def Value.neg : Value → Value
  | number value => number (-value)
  | bigint value => bigint (-value)
  | value => value

/-- What a number stands for, maybe with a sign in front of it. -/
def number? : List Char → Option Value
  | '-' :: cs => (unsigned? (Text.trim cs)).map Value.neg
  | '+' :: cs => unsigned? (Text.trim cs)
  | cs => unsigned? cs

/-! ## Strings -/

/-- The UTF-16 units of a code point. -/
def utf16 (point : Nat) : List Nat :=
  if point < 0x10000 then [point]
  else [0xD800 + (point - 0x10000) / 0x400, 0xDC00 + (point - 0x10000) % 0x400]

/-- What a letter stands for behind a backslash. -/
def escape : Char → Nat
  | 'b' => 8
  | 't' => 9
  | 'n' => 10
  | 'v' => 11
  | 'f' => 12
  | 'r' => 13
  | c => c.toNat

def isLineEnd (c : Char) : Bool := c == '\n' || c == '\r' || c == '\u2028' || c == '\u2029'

/-- Whether a character may not stand for itself between quotes: the quote, the end of
a line where the string is no template, and a substitution in a template. -/
def isForbidden (quote c : Char) (next : Option Char) : Bool :=
  if quote = '`' then c == '`' || c == '$' && next == some '\x7b'
  else c == quote || c == '\n' || c == '\r'

/-- What a reader of a string has seen right before the next character. -/
inductive Seeing where
  | plain
  | backslash
  /-- A backslash and the letter `u`. -/
  | unicode
  /-- Some digits of an escape that has `later` more digits after the next one. -/
  | hex (later value : Nat)
  /-- The digits of an escape in braces. -/
  | braces (value : Option Nat)

/-- The contents of a string between its quotes, escapes resolved. -/
def contents? (quote : Char) : Seeing → List Char → Option (List Nat)
  | .plain, [] => some []
  | _, [] => none
  | .plain, c :: cs =>
    if c = '\\' then contents? quote .backslash cs
    else if isForbidden quote c cs.head? then none
    -- In a template both ends of a line that a carriage return takes part in are a line feed.
    else if c = '\r' then
      if cs.head? = some '\n' then contents? quote .plain cs
      else (10 :: ·) <$> contents? quote .plain cs
    else (utf16 c.toNat ++ ·) <$> contents? quote .plain cs
  | .backslash, c :: cs =>
    if c = 'x' then contents? quote (.hex 1 0) cs
    else if c = 'u' then contents? quote .unicode cs
    else if c.isDigit then
      if c = '0' ∧ (cs.head?.any Char.isDigit) = false then (0 :: ·) <$> contents? quote .plain cs
      else none
    else if c = '\r' ∧ cs.head? = some '\n' then contents? quote .backslash cs
    else if isLineEnd c then contents? quote .plain cs
    else (utf16 (escape c) ++ ·) <$> contents? quote .plain cs
  | .unicode, c :: cs =>
    if c = '\x7b' then contents? quote (.braces none) cs
    else do
      let digit ← digit? 16 c
      contents? quote (.hex 2 digit) cs
  | .hex later value, c :: cs => do
    let digit ← digit? 16 c
    match later with
    | 0 => ((16 * value + digit) :: ·) <$> contents? quote .plain cs
    | later + 1 => contents? quote (.hex later (16 * value + digit)) cs
  | .braces value, c :: cs =>
    if c = '\x7d' then do
      let point ← value
      (utf16 point ++ ·) <$> contents? quote .plain cs
    else do
      let digit ← digit? 16 c
      let point := 16 * value.getD 0 + digit
      if point ≤ 0x10FFFF then contents? quote (.braces (some point)) cs else none

/-- The contents of a string with its quotes around it. -/
def string? : List Char → Option (List Nat)
  | quote :: cs =>
    if isQuote quote ∧ cs.getLast? = some quote then contents? quote .plain cs.dropLast else none
  | [] => none

/-! ## Literals -/

/-- The value that a literal stands for. -/
def Literal.value? (l : Literal) : Option Value :=
  match l.base, l.text with
  | .number, text => number? text.toList
  | .bigint, text => number? text.toList
  | .string, text => (string? text.toList).map .string
  | .boolean, "true" => some (.boolean true)
  | .boolean, "false" => some (.boolean false)
  | .null, "null" => some .null
  | .undefined, "undefined" => some .undefined
  | _, _ => none

end HoverTips.Tree
