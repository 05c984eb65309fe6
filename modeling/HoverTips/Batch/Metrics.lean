import Std.Data.TreeMap
import HoverTips.Text.Decimal
import HoverTips.Tooltip.Record

/-!
# Metrics

A batch counts what it emits: tooltips in all and by term, the files it saw, and the failures it
went on after. Times come from a clock that may run backwards; no time passes then.
-/

namespace HoverTips

/-- A reading of the clock, in nanoseconds since its epoch. -/
structure Instant where
  nanos : Nat
  deriving DecidableEq, Repr

/-- The nanoseconds from one reading to a later one, and none when the later one is smaller. -/
def Instant.since (later earlier : Instant) : Nat := later.nanos - earlier.nanos

/-- A number of nanoseconds in seconds: the whole seconds and the fraction, each rounded. -/
def seconds (nanos : Nat) : Float :=
  Float.ofNat (nanos / 1000000000) + Float.ofNat (nanos % 1000000000) / 1000000000.0

/-- What was emitted under one term. -/
structure TermStats where
  count : Nat
  /-- The kinds of the tooltips, each once, in the order of their names. -/
  kinds : List TooltipKind
  errors : Nat
  deriving DecidableEq, Repr

namespace TermStats

def empty : TermStats := ⟨0, [], 0⟩

def add (s : TermStats) (kind : TooltipKind) : TermStats where
  count := s.count + 1
  kinds := TooltipKind.all.filter fun k => k == kind || s.kinds.contains k
  errors := if kind = .token .error then s.errors + 1 else s.errors

end TermStats

/-- A failure that did not stop the batch. -/
structure MetricsError where
  term : String
  detail : String
  deriving DecidableEq, Repr

def MetricsError.toJson (e : MetricsError) : Json :=
  .obj [("term", .str e.term), ("detail", .str e.detail)]

/-- The counters of a batch. -/
structure Metrics where
  processed : Nat
  /-- The files seen, the latest first. -/
  files : List String
  started : Option Instant
  finished : Option Instant
  terms : Std.TreeMap String TermStats
  errors : List MetricsError

namespace Metrics

def empty : Metrics := ⟨0, [], none, none, {}, []⟩

/-- Marks the start of the batch; the first mark stays. -/
def start (now : Instant) (m : Metrics) : Metrics := { m with started := m.started.or (some now) }

def fileSeen (file : String) (m : Metrics) : Metrics :=
  if m.files.contains file then m else { m with files := file :: m.files }

def record (r : TooltipRecord) (m : Metrics) : Metrics :=
  { m with
    processed := m.processed + 1
    terms := m.terms.alter r.term fun stats => some ((stats.getD .empty).add r.kind) }

def recordError (term detail : String) (m : Metrics) : Metrics :=
  { m with errors := m.errors ++ [⟨term, detail⟩] }

/-- Marks the end of the batch, and its start if there was none; the first mark stays. -/
def freeze (now : Instant) (m : Metrics) : Metrics :=
  let m := m.start now
  { m with finished := m.finished.or (some now) }

/-- The nanoseconds since the start, up to now or to the end of the batch. -/
def elapsed (now : Instant) (m : Metrics) : Nat :=
  match m.started with
  | none => 0
  | some started => (m.finished.getD now).since started

def rate (nanos : Nat) (m : Metrics) : Float :=
  if seconds nanos > 0.0 then Float.ofNat m.processed / seconds nanos else 0.0

end Metrics

/-- The totals of a batch. -/
structure Summary where
  duration : String
  processed : Nat
  files : Nat
  averageRate : String
  errors : Nat
  deriving DecidableEq, Repr

/-- What is written about a batch at its end. -/
structure MetricsArtifact where
  summary : Summary
  errors : List MetricsError
  terms : List (String × TermStats)
  deriving DecidableEq, Repr

def Metrics.artifact (now : Instant) (m : Metrics) : MetricsArtifact :=
  let elapsed := m.elapsed now
  { summary :=
      { duration := Text.fixedPlaces 3 (seconds elapsed) ++ "s"
        processed := m.processed
        files := m.files.length
        averageRate := Text.fixedPlaces 2 (m.rate elapsed) ++ "/s"
        errors := m.errors.length }
    errors := m.errors
    terms := m.terms.toList }

namespace MetricsArtifact

def termJson (term : String) (s : TermStats) : Json :=
  .obj [("term", .str term), ("count", .nat s.count),
    ("types", Json.strings (s.kinds.map TooltipKind.name)), ("errors", .nat s.errors)]

def toJson (a : MetricsArtifact) : Json :=
  .obj [
    ("summary", .obj [("duration", .str a.summary.duration),
      ("tooltipsProcessed", .nat a.summary.processed), ("filesProcessed", .nat a.summary.files),
      ("averageRate", .str a.summary.averageRate), ("errors", .nat a.summary.errors)]),
    ("errors", .arr (a.errors.map MetricsError.toJson)),
    ("tooltipStats", .arr (a.terms.map fun (term, stats) => termJson term stats))]

end MetricsArtifact

end HoverTips
