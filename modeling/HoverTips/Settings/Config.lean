import HoverTips.Files.Disk
import HoverTips.Files.Glob
import HoverTips.Settings.Expand
import HoverTips.Settings.Toml.Document

/-!
# The settings of a project

Settings come from the first file there is: the one the user names, then one in the working
directory, then the user's own. Every setting has a default; keys that are no settings are passed
over. A value of another kind than its setting, and a record without one of its required fields,
make the whole file invalid.
-/

namespace HoverTips

/-- A phrase in page prose that always gets the same tooltip. -/
structure PhraseSetting where
  phrase : String
  aliases : List String
  title : String
  description : String
  theme : Option String
  deriving DecidableEq, Repr

/-- A term of the project's own vocabulary. -/
structure TermSetting where
  name : String
  typeName : String
  documentation : String
  deriving DecidableEq, Repr

/-- The settings of a project. -/
structure Config where
  /-- The root of the docs tree. -/
  docsPath : Option String
  /-- Where the metrics file goes. -/
  logsDir : String
  /-- Patterns for the paths of pages to leave out. -/
  exclude : List String
  /-- The least number of milliseconds between two progress lines. -/
  progressInterval : UInt64
  phrases : List PhraseSetting
  terms : List TermSetting
  deriving DecidableEq, Repr

def Config.standard : Config := ⟨none, "logs", [], 333, [], []⟩

/-! ## Reading values -/

namespace Toml.Value

def asString? : Value → Option String
  | string s => some s
  | _ => none

/-- A number that is not negative and fits in 64 bits. -/
def asWord? : Value → Option UInt64
  | integer n => if 0 ≤ n ∧ n < Int.pow 2 64 then some (UInt64.ofNat n.toNat) else none
  | _ => none

/-- A list whose items are read in the same way. The tables that lines with double brackets opened
are a list too. -/
def asList? {α : Type} (item : Value → Option α) : Value → Option (List α)
  | list items => items.mapM item
  | tables items => items.mapM fun entries => item (.table .opened entries)
  | _ => none

/-- The fields of a record by their names. A record may be written as a list, with its fields in
order. -/
def field? (names : List String) (name : String) : Value → Option Value
  | table _ entries => entries.lookup name
  | list items => items[names.idxOf name]?
  | _ => none

def required? {α : Type} (read : Value → Option α) (field : Option Value) : Option α :=
  field.bind read

def orElse? {α : Type} (default : α) (read : Value → Option α) : Option Value → Option α
  | none => some default
  | some v => read v

end Toml.Value

open Toml Value

def PhraseSetting.ofValue? (v : Value) : Option PhraseSetting := do
  let field := v.field? ["phrase", "aliases", "title", "description", "theme"]
  return {
    phrase := ← required? asString? (field "phrase")
    aliases := ← orElse? [] (asList? asString?) (field "aliases")
    title := ← required? asString? (field "title")
    description := ← orElse? "" asString? (field "description")
    theme := ← orElse? none (some <$> asString? ·) (field "theme") }

def TermSetting.ofValue? (v : Value) : Option TermSetting := do
  let field := v.field? ["name", "type", "documentation"]
  return {
    name := ← required? asString? (field "name")
    typeName := ← required? asString? (field "type")
    documentation := ← orElse? "" asString? (field "documentation") }

namespace Config

/-- The settings that a document describes, as they are written. -/
def ofEntries? (entries : Entries) : Option Config := do
  return {
    docsPath := ← orElse? standard.docsPath (some <$> asString? ·) (entries.lookup "docs_path")
    logsDir := ← orElse? standard.logsDir asString? (entries.lookup "logs_dir")
    exclude := ← orElse? standard.exclude (asList? asString?) (entries.lookup "exclude")
    progressInterval :=
      ← orElse? standard.progressInterval asWord? (entries.lookup "progress_interval_ms")
    phrases :=
      ← orElse? standard.phrases (asList? PhraseSetting.ofValue?) (entries.lookup "global_triggers")
    terms := ← orElse? standard.terms (asList? TermSetting.ofValue?) (entries.lookup "terms") }

/-- The settings with their paths as they are meant. -/
def expand (env : Environment) (c : Config) : Config :=
  { c with
    docsPath := c.docsPath.map (Settings.expandPath env)
    logsDir := Settings.expandPath env c.logsDir }

def ofText? (env : Environment) (text : String) : Option Config := do
  let entries ← Toml.parse? text
  return (← ofEntries? entries).expand env

end Config

/-! ## Finding the file -/

/-- Why settings cannot be used. -/
inductive ConfigError where
  | notFound (path : String)
  | unreadable (path : String) (fault : Files.Fault)
  | invalid (path : String)
  | invalidExclude (pattern : String) (error : Files.GlobError)
  deriving DecidableEq, Repr

def ConfigError.cause? : ConfigError → Option String
  | unreadable _ fault => some fault.message
  | invalidExclude _ error => some error.message
  | notFound _ | invalid _ => none

def ConfigError.message : ConfigError → String
  | notFound path => "Config file not found: " ++ path
  | unreadable path fault => "Failed to read config file at " ++ path ++ ": " ++ fault.message
  | invalid path => "Failed to parse config file at " ++ path
  | invalidExclude pattern error =>
    "Invalid exclude pattern `" ++ pattern ++ "`: " ++ error.message

namespace Config

def localPath : String := "codetips.toml"

def userPath (env : Environment) : String :=
  Files.join (String.ofList (Settings.expandTilde env "~/.config/codetips".toList)) "config.toml"

variable {m : Type → Type} [Monad m]

/-- The settings in a file, if there is something at its path. -/
def load? (disk : Files.Disk m) (env : Environment) (path : String) :
    m (Except ConfigError (Option Config)) := do
  match ← disk.read path with
  | none => return .ok none
  | some (.error fault) => return .error (.unreadable path fault)
  | some (.ok text) =>
    match ofText? env text with
    | some config => return .ok (some config)
    | none => return .error (.invalid path)

/-- The settings in the file that the user names, which must be there, or else in the first file
that is. -/
def locate (disk : Files.Disk m) (env : Environment) (explicit : Option String) :
    m (Except ConfigError (Option Config)) := do
  match explicit with
  | some path =>
    match ← load? disk env path with
    | .ok none => return .error (.notFound path)
    | outcome => return outcome
  | none =>
    match ← load? disk env localPath with
    | .ok none => load? disk env (userPath env)
    | outcome => return outcome

/-- The patterns for the paths to leave out. The first one that is none is an error. -/
def excludePatterns (c : Config) : Except ConfigError (List Files.Glob) :=
  c.exclude.mapM fun pattern =>
    match Files.Glob.ofString pattern with
    | .ok glob => .ok glob
    | .error error => .error (.invalidExclude pattern error)

end Config

end HoverTips
