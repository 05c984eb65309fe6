import HoverTips.Batch.Metrics

/-!
# Progress

While a batch runs, one line tells how far it is, and no two lines are closer than an interval. At
its end a table with one row sums it up. On a terminal the numbers are coloured.
-/

namespace HoverTips

/-- The colours of a terminal that progress uses. -/
inductive Ink where
  | cyan | green | yellow
  deriving DecidableEq, Repr

def Ink.code : Ink → String
  | green => "10"
  | yellow => "11"
  | cyan => "14"

def controlSequence (codes : String) : String := "\x1b[" ++ codes ++ "m"

/-- What was printed, and when a progress line may follow. -/
structure Progress where
  /-- The least number of nanoseconds between two lines. -/
  interval : Nat
  color : Bool
  lastLine : Option Instant
  printed : String
  deriving DecidableEq, Repr

namespace Progress

def new (interval : Nat) (color : Bool) : Progress := ⟨interval, color, none, ""⟩

def paint (p : Progress) (ink : Ink) (text : String) : String :=
  if p.color then
    controlSequence ("38;5;" ++ ink.code) ++ text ++ controlSequence "0"
  else text

def embolden (p : Progress) (text : String) : String :=
  if p.color then controlSequence "1" ++ text ++ controlSequence "0" else text

def print (p : Progress) (text : String) : Progress := { p with printed := p.printed ++ text }

/-- Whether a line may be printed: the first, and then each that comes an interval after the last
one. -/
def isDue (p : Progress) (now : Instant) : Bool :=
  match p.lastLine with
  | none => true
  | some last => p.interval ≤ now.since last

def line (p : Progress) (m : Metrics) (now : Instant) : String :=
  let elapsed := m.elapsed now
  p.paint .cyan (Text.padLeft 7 (toString m.processed)) ++ " tooltips  " ++
    p.paint .cyan (Text.padLeft 4 (toString m.files.length)) ++ " files  " ++
    p.paint .green (Text.padLeft 8 (Text.fixedPlaces 1 (m.rate elapsed)) ++ "/s") ++
    "  " ++ Text.fixedPlaces 1 (seconds elapsed) ++ "s\n"

def tick (p : Progress) (m : Metrics) (now : Instant) : Progress :=
  if p.isDue now then { p.print (p.line m now) with lastLine := some now } else p

def tableRow (duration tooltips files rate errors : String) : String :=
  " ".intercalate [Text.padRight 12 duration, Text.padLeft 10 tooltips, Text.padLeft 8 files,
    Text.padLeft 12 rate, Text.padLeft 8 errors]

def tableHead : String := tableRow "duration" "tooltips" "files" "rate" "errors"

def summarize (p : Progress) (s : Summary) : Progress :=
  let row := tableRow s.duration (toString s.processed) (toString s.files) s.averageRate
    (toString s.errors)
  let ink := if 0 < s.errors then Ink.yellow else .green
  let rule := String.ofList (List.replicate tableHead.length '-')
  p.print (p.embolden tableHead ++ "\n" ++ rule ++ "\n" ++ p.paint ink row ++ "\n")

end Progress

end HoverTips
