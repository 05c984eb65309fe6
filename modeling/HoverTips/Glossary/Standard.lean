import HoverTips.Glossary.Language
import HoverTips.Glossary.Libraries
import HoverTips.Glossary.Registry

/-!
# The standard glossary

The built-in tables in their order of precedence: a name that two of them list, such as `catch`,
reads as the earlier one says.
-/

namespace HoverTips

/-- The built-in tables, those that win first. -/
def Glossary.standardTables : List DefinitionTable :=
  [keywords, builtins, components, promises, browser, procedureCalls]

def Glossary.standard : Glossary := standardTables.foldl insertTable empty

end HoverTips
