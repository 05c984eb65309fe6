import HoverTips.Batch.Runner
import HoverTips.Files.Path

/-!
# Running a batch

A batch runs on a host, which has the clock, knows whether a stop was asked for, and keeps the
metrics file. The host is asked for a stop before each page and before each block; what was done by
then is handed back. A batch that ends without a duplicate id is finalized.
-/

namespace HoverTips

/-- What a batch needs of the world around it. -/
structure Host (m : Type → Type) where
  now : m Instant
  /-- Shows the runner as it is, and answers whether to stop. -/
  stopAsked : Runner → m Bool
  /-- Writes the metrics file below a directory, and answers whether that could be done. -/
  saveMetrics : (directory text : String) → m Bool

def metricsFile : String := "tooltip-metrics.json"

namespace Runner

variable {m : Type → Type} [Monad m]

/-- Reads the clock twice, for one call. -/
def readings (host : Host m) : m Readings := do
  let entered ← host.now
  return ⟨entered, ← host.now⟩

/-- Processes blocks in order until a stop is asked for or an id is a duplicate. -/
def processBlocks (host : Host m) (ctx : Context) (file : String) :
    List Markdown.CodeBlock → Runner → m (Except DuplicateId (List BlockOutput) × Runner)
  | [], r => return (.ok [], r)
  | block :: blocks, r => do
    if ← host.stopAsked r then return (.ok [], r)
    match r.processBlock ctx (← readings host) file block with
    | (.error e, r) => return (.error e, r)
    | (.ok output, r) =>
      let (outputs, r) ← processBlocks host ctx file blocks r
      return (outputs.map (output :: ·), r)

def processPage (host : Host m) (ctx : Context) (page : Markdown.Page) (r : Runner) :
    m (Except DuplicateId PageOutput × Runner) := do
  match r.processProse ctx (← readings host) page.path page.prose with
  | (.error e, r) => return (.error e, r)
  | (.ok tooltips, r) =>
    let (blocks, r) ← processBlocks host ctx page.path page.blocks r
    return (blocks.map fun blocks => ⟨page.path, tooltips, blocks⟩, r)

/-- Ends the batch and writes its metrics file; only the first time does anything. Answers the path
of the file if it was written. -/
def finalize (host : Host m) (r : Runner) : m (Option String × Runner) := do
  if r.finalized then return (none, r)
  let (artifact, r) := r.close (← host.now)
  if ← host.saveMetrics r.logsDir artifact.toJson.fileText then
    return (some (Files.join r.logsDir metricsFile), r)
  else return (none, r)

/-- Takes pages in order and processes them until a stop is asked for or an id is a duplicate. -/
def processPages (host : Host m) (ctx : Context) :
    List (m Markdown.Page) → Runner → m (Except DuplicateId (List PageOutput) × Runner)
  | [], r => return (.ok [], r)
  | take :: later, r => do
    let page ← take
    if ← host.stopAsked r then return (.ok [], r)
    match ← r.processPage host ctx page with
    | (.error e, r) => return (.error e, r)
    | (.ok output, r) =>
      let (outputs, r) ← processPages host ctx later r
      return (outputs.map (output :: ·), r)

/-- Processes pages in order and finalizes the batch, unless an id is a duplicate. -/
def run (host : Host m) (ctx : Context) (pages : List (m Markdown.Page)) (r : Runner) :
    m (Except DuplicateId (List PageOutput) × Runner) := do
  match ← r.processPages host ctx pages with
  | (.error e, r) => return (.error e, r)
  | (.ok outputs, r) =>
    let (_, r) ← r.finalize host
    return (.ok outputs, r)

end Runner

end HoverTips
