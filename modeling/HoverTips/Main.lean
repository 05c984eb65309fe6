import HoverTips.Command.Annotate
import HoverTips.Command.Bundle

/-!
# The command line

The command reads its bundle from the file that the variable `HOVERTIPS_BUNDLE` names, or has an
empty one, runs, and writes the files that changed into the working directory.
-/

namespace HoverTips.Command

/-- The site of a run: the files of the bundle and the clock of the machine. -/
def consoleSite : Site (StateT Files.Store IO) :=
  .ofStore (return ⟨← IO.monoNanosNow⟩) (fun _ => return false)
    (fun r => IO.eprint r.progress.printed) (do (← IO.getStderr).isTty)

def writeBack (path : String) (bytes : ByteArray) : IO Unit := do
  let parent := "/".intercalate (Files.steps path).dropLast
  if parent != "" then IO.FS.createDirAll parent
  IO.FS.writeBinFile path bytes

def runBundle (bundle : Bundle) (args : List String) : IO UInt32 := do
  let (outcome, store) ←
    (run consoleSite bundle.environment bundle.report.analyzer args).run bundle.store
  for (path, bytes) in store.changesSince bundle.store do
    writeBack path bytes
  IO.print outcome.output
  IO.eprint outcome.errorText
  return outcome.exitCode.toUInt32

def readBundle (path : String) : IO Bundle := do
  match Bundle.parse? (← IO.FS.readFile path) with
  | some bundle => return bundle
  | none => throw (IO.userError (path ++ " holds no bundle"))

end HoverTips.Command

def main (args : List String) : IO UInt32 := do
  let bundle ← match ← IO.getEnv "HOVERTIPS_BUNDLE" with
    | some path => HoverTips.Command.readBundle path
    | none => pure HoverTips.Command.Bundle.empty
  HoverTips.Command.runBundle bundle args
