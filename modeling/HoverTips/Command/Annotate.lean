import HoverTips.Analyzer
import HoverTips.Batch.Run
import HoverTips.Command.Arguments
import HoverTips.Settings.Vocabulary

/-!
# Annotating a docs tree

The command finds its settings and the pages of the docs tree, runs a batch over the pages in order
and writes one side-car for each page that it is done with. A page that is no text is left out. The
batch is finalized whether or not the pages went well.
-/

namespace HoverTips.Command

/-- What the command needs of the world around it. -/
structure Site (m : Type → Type) extends Host m where
  disk : Files.Disk m
  /-- Shows the runner once more when the batch is over. -/
  conclude : Runner → m Unit
  /-- Whether progress is shown on a terminal. -/
  onTerminal : m Bool

def Site.ofStore {m : Type → Type} [Monad m] [MonadStateOf Files.Store m] (now : m Instant)
    (stopAsked : Runner → m Bool) (conclude : Runner → m Unit) (onTerminal : m Bool) : Site m where
  now
  stopAsked
  saveMetrics directory text := Files.Store.save (Files.join directory metricsFile) text
  disk := Files.Store.disk
  conclude
  onTerminal

/-- Why the command gave up: what it was doing, and what that was caused by, the nearest cause
first. -/
structure Failure where
  message : String
  causes : List String
  deriving DecidableEq, Repr

namespace Failure

/-- A text with other lines indented like the first. -/
def indentLines (margin : String) (s : String) : String :=
  ("\n" ++ margin).intercalate (s.splitOn "\n")

def numbered (causes : List String) : List String :=
  causes.mapIdx fun i cause =>
    Text.padLeft 5 (toString i) ++ ": " ++ indentLines "       " cause

def causeLines : List String → List String
  | [] => []
  | [cause] => ["", "Caused by:", "    " ++ indentLines "    " cause]
  | causes => ["", "Caused by:"] ++ numbered causes

def text (f : Failure) : String :=
  "\n".intercalate (("Error: " ++ f.message) :: causeLines f.causes) ++ "\n"

def ofSettings (e : ConfigError) : Failure := ⟨e.message, e.cause?.toList⟩

def during (step : String) (f : Failure) : Failure := ⟨step, f.message :: f.causes⟩

end Failure

variable {m : Type → Type} [Monad m]

def writeSidecar (disk : Files.Disk m) (out : String) (output : PageOutput) :
    m (Except Failure Unit) := do
  let path := Files.below out (Files.sidecarPath output.page)
  match ← disk.makeParent path with
  | .error fault => return .error ⟨fault.message, []⟩
  | .ok () =>
    match ← disk.write path output.toJson.fileText with
    | .error fault => return .error ⟨"writing " ++ path, [fault.message]⟩
    | .ok () => return .ok ()

def keepOutput (disk : Files.Disk m) (out : Option String) (output : PageOutput) :
    m (Except Failure Unit) :=
  match out with
  | some out => writeSidecar disk out output
  | none => return .ok ()

/-- What an annotation works with. -/
structure Plan where
  docs : String
  /-- The directory that the side-cars go to. -/
  out : Option String
  registry : Registry
  triggers : TriggerRegistry

def Plan.context (p : Plan) (analyzer : Analyzer) : Context :=
  ⟨analyzer.trees, p.registry, p.triggers⟩

/-- Annotates pages in order until a stop is asked for or something fails. -/
def annotatePages (site : Site m) (analyzer : Analyzer) (plan : Plan) :
    List String → Runner → m (Except Failure Unit × Runner)
  | [], r => return (.ok (), r)
  | path :: paths, r => do
    if ← site.stopAsked r then return (.ok (), r)
    match ← site.disk.read (Files.below plan.docs path) with
    | some (.ok markdown) =>
      match ← r.processPage site.toHost (plan.context analyzer) (analyzer.page path markdown) with
      | (.error e, r) => return (.error ⟨"annotating " ++ path, [e.message]⟩, r)
      | (.ok output, r) =>
        match ← keepOutput site.disk plan.out output with
        | .error failure => return (.error failure, r)
        | .ok () => annotatePages site analyzer plan paths r
    | _ => annotatePages site analyzer plan paths r

def annotateAll (site : Site m) (analyzer : Analyzer) (plan : Plan) (paths : List String)
    (runner : Runner) : m (Except Failure Unit) := do
  let (outcome, r) ← annotatePages site analyzer plan paths runner
  let (_, r) ← r.finalize site.toHost
  site.conclude r
  return outcome

def newRunner (config : Config) (args : Arguments) (onTerminal : Bool) : Runner :=
  .new (.new (config.progressInterval.toNat * 1000000) (onTerminal && !args.noColor))
    (args.logsDir.getD config.logsDir)

/-- Annotates the docs tree that the arguments or the settings name. -/
def annotate (site : Site m) (env : Environment) (analyzer : Analyzer) (args : Arguments) :
    m (Except Failure Unit) := do
  match ← Config.locate site.disk env args.config with
  | .error e => return .error ((Failure.ofSettings e).during "loading config")
  | .ok found =>
    let config := found.getD .standard
    match args.docsPath.or config.docsPath with
    | none =>
      return .error ⟨"no docs path: pass DOCS_PATH or set docs_path in " ++ Config.userPath env, []⟩
    | some docs =>
      match ← site.disk.checkDocs docs with
      | .error e => return .error ⟨"docs path " ++ docs, [e.message]⟩
      | .ok () =>
        match config.excludePatterns with
        | .error e => return .error (.ofSettings e)
        | .ok exclude =>
          match ← site.disk.scan docs exclude with
          | .error e => return .error ⟨e.message, []⟩
          | .ok paths =>
            let plan : Plan := ⟨docs, args.out, config.registry analyzer.engine,
              config.triggers analyzer.engine⟩
            annotateAll site analyzer plan paths (newRunner config args (← site.onTerminal))

/-! ## The command -/

/-- How a run of the command ends. -/
inductive Outcome where
  | done
  /-- Nothing was done but to print a text. -/
  | printed (text : String)
  | misused (e : UsageError)
  | failed (f : Failure)
  deriving DecidableEq, Repr

namespace Outcome

def exitCode : Outcome → UInt8
  | done | printed _ => 0
  | failed _ => 1
  | misused _ => 2

def output : Outcome → String
  | printed text => text
  | done | misused _ | failed _ => ""

def errorText : Outcome → String
  | done | printed _ => ""
  | failed f => f.text
  | misused e =>
    "error: " ++ e.message ++
      "\n\nUsage: codetips [OPTIONS] [DOCS_PATH]\n\nFor more information, try '--help'.\n"

end Outcome

def helpLines : List String :=
  ["Annotate the code blocks of a markdown docs tree with hover tooltips",
    "",
    "Usage: codetips [OPTIONS] [DOCS_PATH]",
    "",
    "Arguments:",
    "  [DOCS_PATH]  Root of the docs tree. Defaults to `docs_path` from the config file",
    "",
    "Options:",
    "      --config <CONFIG>      Config file to use instead of ./codetips.toml or the user config",
    "      --logs-dir <LOGS_DIR>  Where the metrics file goes",
    "      --out <OUT>            Write one `<page>.tooltips.json` side-car per page under this" ++
      " directory",
    "      --no-color             Plain progress output even on a terminal",
    "  -h, --help                 Print help",
    "  -V, --version              Print version"]

def helpText : String := String.join (helpLines.map (· ++ "\n"))

def versionText : String := "codetips 0.1.0\n"

def run (site : Site m) (env : Environment) (analyzer : Analyzer) (args : List String) :
    m Outcome := do
  match Request.ofArguments args with
  | .error e => return .misused e
  | .ok .help => return .printed helpText
  | .ok .version => return .printed versionText
  | .ok (.annotate a) =>
    match ← annotate site env analyzer a with
    | .ok () => return .done
    | .error failure => return .failed failure

end HoverTips.Command
