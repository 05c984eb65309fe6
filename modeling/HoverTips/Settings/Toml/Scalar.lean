/-!
# TOML scalars

Strings in their four forms, and the words that stand for numbers, truth values and times. A reader
of text behind an opening quote answers the text and what follows the closing quote.
-/

namespace HoverTips.Toml

def isBlank (c : Char) : Bool := c == ' ' || c == '\t'

/-- Control characters may stand nowhere in a document, but for the tab and line breaks. -/
def isControl (c : Char) : Bool := (c.toNat < 0x20 && c != '\t') || c.toNat == 0x7F

/-! ## Strings -/

def hexValue? (c : Char) : Option Nat :=
  if '0' ≤ c ∧ c ≤ '9' then some (c.toNat - 48)
  else if 'a' ≤ c ∧ c ≤ 'f' then some (c.toNat - 87)
  else if 'A' ≤ c ∧ c ≤ 'F' then some (c.toNat - 55)
  else none

def charOfHex? (ds : List Char) : Option Char := do
  let n ← ds.foldlM (fun n d => (n * 16 + ·) <$> hexValue? d) 0
  if h : n.isValidChar then some ⟨n.toUInt32, by
    rcases h with h | ⟨h₁, h₂⟩
    · left; simp only [Nat.toUInt32, UInt32.toNat_ofNat']; omega
    · right; simp only [Nat.toUInt32, UInt32.toNat_ofNat']; omega⟩ else none

def escaped? : Char → Option Char
  | 'b' => some '\x08'
  | 't' => some '\t'
  | 'n' => some '\n'
  | 'f' => some '\x0c'
  | 'r' => some '\r'
  | 'e' => some '\x1b'
  | '"' => some '"'
  | '\\' => some '\\'
  | _ => none

abbrev Rest := Option (List Char × List Char)

/-- Puts a character, if there is one, in front of a text that was read. -/
def withChar (c? : Option Char) (rest : Rest) : Rest := do
  let c ← c?
  let (cs, after) ← rest
  return (c :: cs, after)

/-- A string in double quotes. -/
def basicString : List Char → Rest
  | [] => none
  | '"' :: rest => some ([], rest)
  | '\\' :: 'x' :: a :: b :: rest => withChar (charOfHex? [a, b]) (basicString rest)
  | '\\' :: 'u' :: a :: b :: c :: d :: rest =>
    withChar (charOfHex? [a, b, c, d]) (basicString rest)
  | '\\' :: 'U' :: a :: b :: c :: d :: e :: f :: g :: h :: rest =>
    withChar (charOfHex? [a, b, c, d, e, f, g, h]) (basicString rest)
  | '\\' :: c :: rest => withChar (escaped? c) (basicString rest)
  | c :: rest => if isControl c || c == '\\' then none else withChar (some c) (basicString rest)

/-- A string in single quotes, without escapes. -/
def literalString : List Char → Rest
  | [] => none
  | '\'' :: rest => some ([], rest)
  | c :: rest => if isControl c then none else withChar (some c) (literalString rest)

/-- Whether a line ends here, blanks aside. -/
def endsLine (cs : List Char) : Bool :=
  match cs.dropWhile isBlank with
  | '\n' :: _ => true
  | '\r' :: '\n' :: _ => true
  | _ => false

/-- A string in three double quotes each side. After a backslash at the end of a line, `skipping`
passes over the white space up to the next text. -/
def basicLines : Bool → List Char → Rest
  | _, [] => none
  | _, '"' :: '"' :: '"' :: '"' :: '"' :: rest => some (['"', '"'], rest)
  | _, '"' :: '"' :: '"' :: '"' :: rest => some (['"'], rest)
  | _, '"' :: '"' :: '"' :: rest => some ([], rest)
  | true, '\r' :: '\n' :: rest => basicLines true rest
  | false, '\r' :: '\n' :: rest =>
    withChar (some '\r') (withChar (some '\n') (basicLines false rest))
  | _, '\\' :: 'x' :: a :: b :: rest => withChar (charOfHex? [a, b]) (basicLines false rest)
  | _, '\\' :: 'u' :: a :: b :: c :: d :: rest =>
    withChar (charOfHex? [a, b, c, d]) (basicLines false rest)
  | _, '\\' :: 'U' :: a :: b :: c :: d :: e :: f :: g :: h :: rest =>
    withChar (charOfHex? [a, b, c, d, e, f, g, h]) (basicLines false rest)
  | skipping, c :: rest =>
    if skipping && (isBlank c || c == '\n') then basicLines true rest
    else if c == '\\' then
      if endsLine rest then basicLines true rest
      else match rest with
        | e :: rest => withChar (escaped? e) (basicLines false rest)
        | [] => none
    else if isControl c && c != '\n' then none
    else withChar (some c) (basicLines false rest)

/-- A string in three single quotes each side. -/
def literalLines : List Char → Rest
  | [] => none
  | '\'' :: '\'' :: '\'' :: '\'' :: '\'' :: rest => some (['\'', '\''], rest)
  | '\'' :: '\'' :: '\'' :: '\'' :: rest => some (['\''], rest)
  | '\'' :: '\'' :: '\'' :: rest => some ([], rest)
  | '\r' :: '\n' :: rest => withChar (some '\r') (withChar (some '\n') (literalLines rest))
  | c :: rest =>
    if isControl c && c != '\n' then none else withChar (some c) (literalLines rest)

/-- A line break right behind three quotes is no part of the string. -/
def dropFirstBreak : List Char → List Char
  | '\n' :: rest => rest
  | '\r' :: '\n' :: rest => rest
  | cs => cs

def quoted : List Char → Rest
  | '"' :: '"' :: '"' :: rest => basicLines false (dropFirstBreak rest)
  | '"' :: rest => basicString rest
  | '\'' :: '\'' :: '\'' :: rest => literalLines (dropFirstBreak rest)
  | '\'' :: rest => literalString rest
  | _ => none

/-! ## Numbers -/

/-- Digits, with single underscores between them left out. -/
def digitRun (isDigit : Char → Bool) : List Char → Option (List Char)
  | [] => none
  | [c] => if isDigit c then some [c] else none
  | c :: '_' :: rest => if isDigit c then (c :: ·) <$> digitRun isDigit rest else none
  | c :: rest => if isDigit c then (c :: ·) <$> digitRun isDigit rest else none

def valueOf (base : Nat) (ds : List Char) : Nat :=
  ds.foldl (fun n d => n * base + (hexValue? d).getD 0) 0

/-- Decimal digits without a zero in front of others. -/
def decimalDigits? (cs : List Char) : Option (List Char) :=
  match digitRun Char.isDigit cs with
  | some ('0' :: _ :: _) => none
  | ds => ds

def unsigned : List Char → List Char
  | '+' :: rest => rest
  | '-' :: rest => rest
  | cs => cs

def integer? (cs : List Char) : Option Int :=
  match cs with
  | '0' :: 'x' :: rest =>
    (fun ds => (valueOf 16 ds : Int)) <$> digitRun (fun c => (hexValue? c).isSome) rest
  | '0' :: 'o' :: rest =>
    (fun ds => (valueOf 8 ds : Int)) <$> digitRun (fun c => '0' ≤ c && c ≤ '7') rest
  | '0' :: 'b' :: rest =>
    (fun ds => (valueOf 2 ds : Int)) <$> digitRun (fun c => c == '0' || c == '1') rest
  | _ =>
    (fun ds => if cs.head? == some '-' then -(valueOf 10 ds : Int) else valueOf 10 ds) <$>
      decimalDigits? (unsigned cs)

def integerInRange (n : Int) : Bool := -(Int.pow 2 127) ≤ n && n < Int.pow 2 128

/-- Whether a word stands for a number with a fraction or an exponent, or for no finite number. -/
def isFloat (cs : List Char) : Bool :=
  let body := unsigned cs
  if body == "inf".toList || body == "nan".toList then true
  else
    let isExponent := fun c : Char => c == 'e' || c == 'E'
    let mantissa := body.takeWhile (!isExponent ·)
    let exponent := body.dropWhile (!isExponent ·)
    let whole := mantissa.takeWhile (· != '.')
    let fraction := mantissa.dropWhile (· != '.')
    (decimalDigits? whole).isSome &&
      (fraction.isEmpty || (digitRun Char.isDigit fraction.tail).isSome) &&
      (exponent.isEmpty || (digitRun Char.isDigit (unsigned exponent.tail)).isSome) &&
      !(fraction.isEmpty && exponent.isEmpty)

/-! ## Times -/

def twoDigits? (a b : Char) : Option Nat :=
  if a.isDigit && b.isDigit then some (valueOf 10 [a, b]) else none

def daysIn (year month : Nat) : Nat :=
  match month with
  | 2 => if year % 4 = 0 ∧ (year % 100 ≠ 0 ∨ year % 400 = 0) then 29 else 28
  | 4 | 6 | 9 | 11 => 30
  | _ => 31

def afterDate? : List Char → Option (List Char)
  | a :: b :: c :: d :: '-' :: e :: f :: '-' :: g :: h :: rest => do
    let year := (← twoDigits? a b) * 100 + (← twoDigits? c d)
    let month ← twoDigits? e f
    let day ← twoDigits? g h
    if 1 ≤ month ∧ month ≤ 12 ∧ 1 ≤ day ∧ day ≤ daysIn year month then some rest else none
  | _ => none

def afterFraction? : List Char → Option (List Char)
  | '.' :: c :: rest => if c.isDigit then some (rest.dropWhile Char.isDigit) else none
  | '.' :: [] => none
  | cs => some cs

/-- What follows a time of day at the front of a text; the seconds may be left out. -/
def afterTime? : List Char → Option (List Char)
  | a :: b :: ':' :: c :: d :: rest => do
    let hour ← twoDigits? a b
    let minute ← twoDigits? c d
    if 23 < hour ∨ 59 < minute then none
    match rest with
    | ':' :: e :: f :: rest =>
      if 60 < (← twoDigits? e f) then none
      afterFraction? rest
    | ':' :: _ => none
    | rest => some rest
  | _ => none

/-- Whether a text is the offset of a time zone, or nothing. -/
def isOffset : List Char → Bool
  | [] => true
  | ['Z'] | ['z'] => true
  | [sign, a, b, ':', c, d] =>
    (sign == '+' || sign == '-') && (twoDigits? a b).any (· ≤ 24) && (twoDigits? c d).any (· ≤ 59)
  | _ => false

def isTime (cs : List Char) : Bool :=
  match afterDate? cs with
  | some [] => true
  | some (mark :: rest) =>
    (mark == 'T' || mark == 't' || mark == ' ') && (afterTime? rest).any isOffset
  | none => (afterTime? cs).any (·.isEmpty)

end HoverTips.Toml
