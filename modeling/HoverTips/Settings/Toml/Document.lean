import HoverTips.Settings.Toml.Scalar

/-!
# TOML documents

A document is a list of lines that open tables and set keys. Every key is set once; a table that was
opened, or that keys with dots went through, is not opened again, and nothing is added to a table or
an array that was written as a value.
-/

namespace HoverTips.Toml

/-- How a table came to be. -/
inductive Origin where
  /-- On the way to a table below it. -/
  | implied
  /-- By a line of its own. -/
  | opened
  /-- By a key with dots. -/
  | dotted
  /-- As a value in braces. -/
  | inline
  deriving DecidableEq, Repr

/-- A value. Numbers that are not whole, and times, are known only to be there. -/
inductive Value where
  | string (s : String)
  | integer (n : Int)
  | boolean (b : Bool)
  | float
  | time
  | list (items : List Value)
  | table (origin : Origin) (entries : List (String × Value))
  /-- The tables that lines with double brackets opened. -/
  | tables (items : List (List (String × Value)))

abbrev Entries := List (String × Value)

/-! ## Building tables -/

/-- Changes the value of a key. A new key goes behind the others. -/
def alter (key : String) (change : Option Value → Option Value) : Entries → Option Entries
  | [] => (fun v => [(key, v)]) <$> change none
  | (k, v) :: rest =>
    if k == key then (fun new => (k, new) :: rest) <$> change (some v)
    else ((k, v) :: ·) <$> alter key change rest

def setKey (value : Value) : List String → Entries → Option Entries
  | [], _ => none
  | [key], entries =>
    alter key (fun | none => some value | some _ => none) entries
  | key :: second :: keys, entries =>
    alter key
      (fun
        | none => .table .dotted <$> setKey value (second :: keys) []
        | some (.table origin inner) =>
          if origin = .implied ∨ origin = .dotted then
            .table origin <$> setKey value (second :: keys) inner
          else none
        | some _ => none)
      entries

/-- Changes the table at the end of some keys; the tables on the way are made. Of tables opened with
double brackets the last one is meant. -/
def changeTable (change : Entries → Option Entries) : List String → Entries → Option Entries
  | [], entries => change entries
  | key :: keys, entries =>
    alter key
      (fun
        | none => .table .implied <$> changeTable change keys []
        | some (.table origin inner) =>
          if origin = .inline then none else .table origin <$> changeTable change keys inner
        | some (.tables items) =>
          match items.getLast? with
          | some last => do
            let changed ← changeTable change keys last
            return .tables (items.dropLast ++ [changed])
          | none => none
        | some _ => none)
      entries

def openTable (keys : List String) (entries : Entries) : Option Entries :=
  match keys.getLast? with
  | none => none
  | some key =>
    changeTable
      (alter key fun
        | none => some (.table .opened [])
        | some (.table .implied inner) => some (.table .opened inner)
        | some _ => none)
      keys.dropLast entries

def openListed (keys : List String) (entries : Entries) : Option Entries :=
  match keys.getLast? with
  | none => none
  | some key =>
    changeTable
      (alter key fun
        | none => some (.tables [[]])
        | some (.tables items) => some (.tables (items ++ [[]]))
        | some _ => none)
      keys.dropLast entries

/-! ## Reading -/

def skipBlank (cs : List Char) : List Char := cs.dropWhile isBlank

/-- A character that may stand in a key without quotes. -/
def isBare (c : Char) : Bool := c.isAlpha || c.isDigit || c == '_' || c == '-'

def keyPart (cs : List Char) : Option (String × List Char) :=
  match cs with
  | '"' :: '"' :: '"' :: _ => none
  | '\'' :: '\'' :: '\'' :: _ => none
  | '"' :: _ | '\'' :: _ => (fun (s, rest) => (String.ofList s, rest)) <$> quoted cs
  | _ =>
    let bare := cs.takeWhile isBare
    if bare.isEmpty then none else some (String.ofList bare, cs.dropWhile isBare)

/-- A key with its dots. The fuel is the number of characters left. -/
def readKey : Nat → List Char → Option (List String × List Char)
  | 0, _ => none
  | fuel + 1, cs => do
    let (part, rest) ← keyPart (skipBlank cs)
    match skipBlank rest with
    | '.' :: rest =>
      let (parts, rest) ← readKey fuel rest
      return (part :: parts, rest)
    | rest => return ([part], rest)

/-- What follows a comment: the line break, or the end. -/
def skipComment : List Char → Option (List Char)
  | [] => some []
  | '\n' :: rest => some ('\n' :: rest)
  | '\r' :: '\n' :: rest => some ('\r' :: '\n' :: rest)
  | c :: rest => if isControl c then none else skipComment rest

def skipLines (inComment : Bool) : List Char → Option (List Char)
  | [] => some []
  | '\n' :: rest => skipLines false rest
  | '\r' :: '\n' :: rest => skipLines false rest
  | c :: rest =>
    if inComment then if isControl c then none else skipLines true rest
    else if isBlank c then skipLines false rest
    else if c == '#' then skipLines true rest
    else some (c :: rest)

/-- A character that may stand in a number, a truth value or a time. -/
def isScalarChar (c : Char) : Bool := isBare c || c == '+' || c == '.' || c == ':'

/-- A number, truth value or time at the front of a text. Date and time may have a space between
them. -/
def readScalar (cs : List Char) : Option (Value × List Char) := do
  let word := cs.takeWhile isScalarChar
  let rest := cs.dropWhile isScalarChar
  let (word, rest) := match rest with
    | ' ' :: c :: more =>
      if c.isDigit && (afterDate? word).any (·.isEmpty) then
        (word ++ ' ' :: (c :: more).takeWhile isScalarChar, (c :: more).dropWhile isScalarChar)
      else (word, rest)
    | _ => (word, rest)
  if word == "true".toList then return (.boolean true, rest)
  if word == "false".toList then return (.boolean false, rest)
  match integer? word with
  | some n => if integerInRange n then return (.integer n, rest) else none
  | none =>
    if isFloat word then return (.float, rest)
    if isTime word then return (.time, rest)
    none

mutual

/-- A value at the front of a text. The fuel bounds the readers that call each other; twice the
length of the text is enough. -/
def readValue : Nat → List Char → Option (Value × List Char)
  | 0, _ => none
  | fuel + 1, cs =>
    match cs with
    | '"' :: _ | '\'' :: _ => (fun (s, rest) => (.string (String.ofList s), rest)) <$> quoted cs
    | '[' :: rest => (fun (items, rest) => (.list items, rest)) <$> readItems fuel rest
    | '\x7b' :: rest => (fun (entries, rest) => (.table .inline entries, rest)) <$>
        readMembers fuel [] rest
    | _ => readScalar cs

def readItems : Nat → List Char → Option (List Value × List Char)
  | 0, _ => none
  | fuel + 1, cs => do
    match ← skipLines false cs with
    | ']' :: rest => return ([], rest)
    | cs =>
      let (item, rest) ← readValue fuel cs
      match ← skipLines false rest with
      | ',' :: rest =>
        let (items, rest) ← readItems fuel rest
        return (item :: items, rest)
      | ']' :: rest => return ([item], rest)
      | _ => none

/-- The members of a table in braces behind its opening brace or a comma, after those that were
read so far. -/
def readMembers : Nat → Entries → List Char → Option (Entries × List Char)
  | 0, _, _ => none
  | fuel + 1, entries, cs => do
    match ← skipLines false cs with
    | '\x7d' :: rest => return (entries, rest)
    | cs =>
      let (key, rest) ← readKey cs.length cs
      match rest with
      | '=' :: rest =>
        let (value, rest) ← readValue fuel (skipBlank rest)
        let entries ← setKey value key entries
        match ← skipLines false rest with
        | ',' :: rest => readMembers fuel entries rest
        | '\x7d' :: rest => return (entries, rest)
        | _ => none
      | _ => none

end

/-- A document that was read up to a line: its tables, and the keys of the table that is open. -/
structure Document where
  entries : Entries
  current : List String

/-- What follows a line's last value: blanks, a comment, and the line break. -/
def finishLine (cs : List Char) : Option (List Char) := do
  let rest ← match skipBlank cs with
    | '#' :: rest => skipComment rest
    | rest => some rest
  match rest with
  | [] => some []
  | '\n' :: rest => some rest
  | '\r' :: '\n' :: rest => some rest
  | _ => none

def readLine (d : Document) (cs : List Char) : Option (Document × List Char) := do
  match cs with
  | '[' :: '[' :: rest =>
    let (keys, rest) ← readKey rest.length rest
    match rest with
    | ']' :: ']' :: rest =>
      return (⟨← openListed keys d.entries, keys⟩, ← finishLine rest)
    | _ => none
  | '[' :: rest =>
    let (keys, rest) ← readKey rest.length rest
    match rest with
    | ']' :: rest => return (⟨← openTable keys d.entries, keys⟩, ← finishLine rest)
    | _ => none
  | _ =>
    let (keys, rest) ← readKey cs.length cs
    match rest with
    | '=' :: rest =>
      let (value, rest) ← readValue (2 * rest.length + 2) (skipBlank rest)
      let entries ← changeTable (setKey value keys) d.current d.entries
      return (⟨entries, d.current⟩, ← finishLine rest)
    | _ => none

/-- Reads the lines of a document. The fuel is the number of characters left. -/
def readLines : Nat → Document → List Char → Option Document
  | 0, d, cs => if cs.isEmpty then some d else none
  | fuel + 1, d, cs => do
    match ← skipLines false cs with
    | [] => return d
    | cs =>
      let (d, rest) ← readLine d cs
      readLines fuel d rest

/-- The keys of a document with their values. A byte order mark in front is passed over. -/
def parse? (text : String) : Option Entries :=
  let cs := match text.toList with
    | '\uFEFF' :: rest => rest
    | cs => cs
  (·.entries) <$> readLines cs.length ⟨[], []⟩ cs

end HoverTips.Toml
