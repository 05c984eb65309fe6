import HoverTips.Analyzer.Report
import HoverTips.Files.Snapshot
import HoverTips.Settings.Expand

/-!
# Bundles

A bundle is one JSON object with all that the command works on: `files`, a snapshot of the working
directory; `environment`, the variables by name; and the analyzer's report on the pages. Files
outside of the working directory are not part of it.
-/

namespace HoverTips.Command

/-- What the command works on. -/
structure Bundle where
  store : Files.Store
  environment : Environment
  report : Report

namespace Bundle

/-- The environment with some variables. Without a home directory, paths start in the working
directory. -/
def environmentOf (values : List (String × String)) : Environment where
  home := (values.lookup "HOME").getD "."
  valueOf? name := values.lookup name

def textMembers? : Json → Option (List (String × String))
  | .obj members => members.mapM fun (name, value) => (name, ·) <$> value.asString?
  | _ => none

def empty : Bundle := ⟨.empty, environmentOf [], ⟨[], []⟩⟩

def ofJson? (j : Json) : Option Bundle := do
  let store ← Files.Store.ofJson? ((j.get? "files").getD (.obj []))
  let values ← textMembers? ((j.get? "environment").getD (.obj []))
  return ⟨store, environmentOf values, ← Report.ofJson? j⟩

def parse? (text : String) : Option Bundle := (Json.parse? text).bind ofJson?

end Bundle

end HoverTips.Command
