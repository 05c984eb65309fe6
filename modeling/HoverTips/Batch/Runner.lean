import HoverTips.Batch.Progress
import HoverTips.Block.Parser
import HoverTips.Markdown.Page
import HoverTips.Tooltip.Page

/-!
# The runner

The runner turns blocks and prose into tooltips and counts them. Failures it can go on after, such
as a downgraded parser or a refused tooltip, are counted; a duplicate id ends the call. Once the
runner is finalized its counters and its output stand still, while calls go on answering as before.
-/

namespace HoverTips

/-- What a batch reads and never changes. -/
structure Context where
  trees : Trees
  registry : Registry
  triggers : TriggerRegistry

/-- What is known about one block, with its tooltips. -/
structure BlockOutput where
  blockId : String
  language : String
  analysis : Analysis
  tooltips : List TooltipRecord
  deriving DecidableEq, Repr

def BlockOutput.toJson (b : BlockOutput) : Json :=
  .obj [("blockId", .str b.blockId), ("language", .str b.language), ("result", b.analysis.toJson),
    ("tooltips", .arr (b.tooltips.map TooltipRecord.toJson))]

/-- What is known about one page: the tooltips of its prose, and its blocks. -/
structure PageOutput where
  page : String
  tooltips : List TooltipRecord
  blocks : List BlockOutput
  deriving DecidableEq, Repr

def PageOutput.toJson (p : PageOutput) : Json :=
  .obj [("page", .str p.page), ("tooltips", .arr (p.tooltips.map TooltipRecord.toJson)),
    ("blocks", .arr (p.blocks.map BlockOutput.toJson))]

/-- The clock as a call reads it: when it starts, and when its tooltips are counted. -/
structure Readings where
  entered : Instant
  counted : Instant
  deriving DecidableEq, Repr

/-- The state of a batch. -/
structure Runner where
  metrics : Metrics
  progress : Progress
  logsDir : String
  /-- The ids of the pages that were worked on, by file. -/
  pages : Std.TreeMap String PageIds
  finalized : Bool

namespace Runner

def new (progress : Progress) (logsDir : String) : Runner := ⟨.empty, progress, logsDir, {}, false⟩

def pageOf (r : Runner) (file : String) : PageIds := (r.pages[file]?).getD (.empty file)

/-- Changes the counters, unless the runner is finalized. -/
def count (f : Metrics → Metrics) (r : Runner) : Runner :=
  if r.finalized then r else { r with metrics := f r.metrics }

def enter (now : Instant) (file : String) (r : Runner) : Runner :=
  r.count fun m => (m.start now).fileSeen file

def countWarnings (block : String) (warnings : List String) (r : Runner) : Runner :=
  warnings.foldl (fun r w => r.count (·.recordError block w)) r

/-- Counts the refused and the accepted tooltips of a call, and prints a line if one is due. -/
def tally (now : Instant) (a : Assembled) (r : Runner) : Runner :=
  let refused := a.rejected.foldl
    (fun r x => r.count (·.recordError x.term x.refusal.message)) r
  let counted := a.records.foldl (fun r x => r.count (·.record x)) refused
  if counted.finalized then counted
  else { counted with progress := counted.progress.tick counted.metrics now }

/-- Adds tooltips to a file's page and counts them; after a duplicate id nothing is counted. -/
def settle (now : Instant) (file : String)
    (outcome : Except DuplicateId Assembled × PageIds) (r : Runner) :
    Except DuplicateId (List TooltipRecord) × Runner :=
  let kept := { r with pages := r.pages.insert file outcome.2 }
  match outcome.1 with
  | .error e => (.error e, kept)
  | .ok a => (.ok a.records, kept.tally now a)

def recordBlock (clock : Readings) (file : String) (block : Markdown.CodeBlock) (a : Analysis)
    (r : Runner) : Except DuplicateId BlockOutput × Runner :=
  let r := (r.enter clock.entered file).countWarnings block.id a.warnings
  let (records, r) := r.settle clock.counted file
    ((r.pageOf file).assembleBlock block.id block.language a)
  (records.map fun tooltips => ⟨block.id, block.language, a, tooltips⟩, r)

def processBlock (ctx : Context) (clock : Readings) (file : String) (block : Markdown.CodeBlock)
    (r : Runner) : Except DuplicateId BlockOutput × Runner :=
  r.recordBlock clock file block (analyzeBlock ctx.trees ctx.registry block.source block.language)

def processProse (ctx : Context) (clock : Readings) (file prose : String) (r : Runner) :
    Except DuplicateId (List TooltipRecord) × Runner :=
  let r := r.enter clock.entered file
  r.settle clock.counted file ((r.pageOf file).assembleProse ctx.triggers prose)

/-- Ends the batch at a time: the metrics stand still, the table is printed, and what is to be
written about the batch is handed back. -/
def close (now : Instant) (r : Runner) : MetricsArtifact × Runner :=
  let metrics := r.metrics.freeze now
  let artifact := metrics.artifact now
  (artifact,
    { r with metrics, progress := r.progress.summarize artifact.summary, finalized := true })

end Runner

end HoverTips
