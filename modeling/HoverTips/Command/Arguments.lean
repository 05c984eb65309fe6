/-!
# Command line arguments

The command takes the root of the docs tree and a few options. An option's value stands behind an
equals sign or is the next argument; behind two hyphens every argument is a path. An argument that
is waiting to be taken in, because the next one might still belong to it, is checked when something
else comes.
-/

namespace HoverTips.Command

/-- An option that has a value. -/
inductive ValueOption where
  | config | logsDir | out
  deriving DecidableEq, Repr

/-- A switch without a value. -/
inductive Switch where
  | noColor | help | version
  deriving DecidableEq, Repr

/-- What a user asks for when annotating a docs tree. -/
structure Arguments where
  docsPath : Option String
  config : Option String
  logsDir : Option String
  /-- The directory that the side-cars go to. -/
  out : Option String
  noColor : Bool
  deriving DecidableEq, Repr

/-- What a user asks for. -/
inductive Request where
  | annotate (a : Arguments)
  | help
  | version
  deriving DecidableEq, Repr

/-- Where a value goes: to an option, or to the root of the docs tree. -/
inductive Slot where
  | option (o : ValueOption)
  | docsPath
  deriving DecidableEq, Repr

/-- Why the arguments make no request. -/
inductive UsageError where
  /-- No option, switch or path is written like this. -/
  | unexpected (written : String)
  | missingValue (slot : Slot)
  /-- A switch has no value. -/
  | surplusValue (value : String) (switch : Switch)
  | repeatedOption (o : ValueOption)
  | repeatedSwitch (s : Switch)
  deriving DecidableEq, Repr

namespace ValueOption

def name : ValueOption → String
  | config => "config"
  | logsDir => "logs-dir"
  | out => "out"

def usage : ValueOption → String
  | config => "--config <CONFIG>"
  | logsDir => "--logs-dir <LOGS_DIR>"
  | out => "--out <OUT>"

def ofName? (s : String) : Option ValueOption := [config, logsDir, out].find? (·.name == s)

end ValueOption

namespace Switch

def name : Switch → String
  | noColor => "no-color"
  | help => "help"
  | version => "version"

def ofName? (s : String) : Option Switch := [noColor, help, version].find? (·.name == s)

def usage (s : Switch) : String := "--" ++ s.name

end Switch

def Slot.usage : Slot → String
  | option o => o.usage
  | docsPath => "[DOCS_PATH]"

def UsageError.message : UsageError → String
  | unexpected written => "unexpected argument '" ++ written ++ "' found"
  | missingValue slot =>
    "a value is required for '" ++ slot.usage ++ "' but none was supplied"
  | surplusValue value switch =>
    "unexpected value '" ++ value ++ "' for '" ++ switch.usage ++
      "' found; no more were expected"
  | repeatedOption o => "the argument '" ++ o.usage ++ "' cannot be used multiple times"
  | repeatedSwitch s => "the argument '" ++ s.usage ++ "' cannot be used multiple times"

/-! ## Single arguments -/

/-- What an argument is by its form. -/
inductive Word where
  /-- Two hyphens: no options follow. -/
  | separator
  /-- An option, with the value behind its equals sign. -/
  | option (o : ValueOption) (attached : Option String)
  /-- A switch, with the value behind its equals sign. -/
  | switch (s : Switch) (attached : Option String)
  /-- It looks like an option and is none. -/
  | unknown (written : String)
  | plain (value : String)
  deriving DecidableEq, Repr

def splitEquals : List Char → List Char × Option (List Char)
  | '=' :: behind => ([], some behind)
  | c :: cs => (c :: (splitEquals cs).1, (splitEquals cs).2)
  | [] => ([], none)

def longWord (cs : List Char) : Word :=
  let (name, attached) := splitEquals cs
  let name := String.ofList name
  let attached := attached.map String.ofList
  match ValueOption.ofName? name, Switch.ofName? name with
  | some o, _ => .option o attached
  | none, some s => .switch s attached
  | none, none => .unknown ("--" ++ name)

/-- What an argument is by its form. Single hyphens have one letter behind them; one alone is a
value. -/
def Word.ofString (arg : String) : Word :=
  match arg.toList with
  | ['-', '-'] => .separator
  | '-' :: '-' :: cs => longWord cs
  | '-' :: 'h' :: _ => .switch .help none
  | '-' :: 'V' :: _ => .switch .version none
  | '-' :: c :: _ => .unknown (String.ofList ['-', c])
  | _ => .plain arg

/-! ## All arguments -/

/-- The arguments that were read so far. -/
structure Reader where
  taken : Arguments
  /-- A value, or the lack of one, that was not taken in yet. -/
  waiting : Option (Slot × Option String)
  /-- Whether the root of the docs tree was given. -/
  hasDocsPath : Bool
  /-- Whether every argument is a path from here on. -/
  pathsOnly : Bool
  deriving DecidableEq, Repr

namespace Reader

def initial : Reader := ⟨⟨none, none, none, none, false⟩, none, false, false⟩

def given (a : Arguments) : ValueOption → Option String
  | .config => a.config
  | .logsDir => a.logsDir
  | .out => a.out

def put (a : Arguments) (value : String) : Slot → Arguments
  | .option .config => { a with config := some value }
  | .option .logsDir => { a with logsDir := some value }
  | .option .out => { a with out := some value }
  | .docsPath => { a with docsPath := some value }

/-- Takes a value into its slot. There must be one, an option must be new, and no value is
empty. -/
def take (slot : Slot) (value : Option String) (r : Reader) : Except UsageError Reader :=
  match value with
  | none => .error (.missingValue slot)
  | some value =>
    match slot with
    | .option o =>
      if (given r.taken o).isSome then .error (.repeatedOption o)
      else if value == "" then .error (.missingValue slot)
      else .ok { r with taken := put r.taken value slot }
    | .docsPath =>
      if value == "" then .error (.missingValue slot)
      else .ok { r with taken := put r.taken value slot }

def settle (r : Reader) : Except UsageError Reader :=
  match r.waiting with
  | none => .ok r
  | some (slot, value) => take slot value { r with waiting := none }

/-- A value that belongs to no option: the root of the docs tree, which is given once. -/
def path (value : String) (r : Reader) : Except UsageError Reader :=
  if r.hasDocsPath then .error (.unexpected value)
  else do
    let r ← r.settle
    return { r with waiting := some (.docsPath, some value), hasDocsPath := true }

def value (v : String) (r : Reader) : Except UsageError Reader :=
  match r.waiting with
  | some (.option o, none) => .ok { r with waiting := some (.option o, some v) }
  | _ => r.path v

/-- An option: its value is attached, or the next argument is waited for. -/
def option (o : ValueOption) (attached : Option String) (r : Reader) :
    Except UsageError Reader := do
  let r ← r.settle
  match attached with
  | some v => r.take (.option o) (some v)
  | none => return { r with waiting := some (.option o, none) }

def noColor (r : Reader) : Except UsageError Reader := do
  let r ← r.settle
  if r.taken.noColor then throw (.repeatedSwitch .noColor)
  return { r with taken := { r.taken with noColor := true } }

/-- Reads the arguments to their end, or to a switch that asks for something else. -/
def read (r : Reader) : List String → Except UsageError Request
  | [] => do return .annotate (← r.settle).taken
  | arg :: args => do
    if r.pathsOnly then read (← r.path arg) args
    else
      match Word.ofString arg with
      | .separator => read { r with pathsOnly := true } args
      | .plain v => read (← r.value v) args
      | .option o attached => read (← r.option o attached) args
      | .switch s (some v) => throw (.surplusValue v s)
      | .switch .noColor none => read (← r.noColor) args
      | .switch .help none => do
        let _ ← r.settle
        return .help
      | .switch .version none => do
        let _ ← r.settle
        return .version
      | .unknown written => throw (.unexpected written)

end Reader

def Request.ofArguments (args : List String) : Except UsageError Request := Reader.initial.read args

end HoverTips.Command
