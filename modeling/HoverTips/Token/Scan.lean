import HoverTips.Text.Words
import HoverTips.Token

/-!
# The glossary scan

The scan needs no grammar: it finds every maximal run of word characters that is a registry name.
It searches for the names, so a registry whose search was refused finds none of them.
-/

namespace HoverTips

/-- One identifier token for every whole word of the source that is a name of the glossary. -/
def Glossary.tokensIn (g : Glossary) (source : List Char) : List Token :=
  (Text.runsAt Text.isWord 0 source).filterMap fun (start, word) =>
    if (g.lookup (String.ofList word)).isSome then
      Token.at? source ⟨start, start + Text.byteLength word⟩ .identifier
    else none

def scanGlossary (r : Registry) (source : List Char) : List Token :=
  if r.searchable then r.tokensIn source else []

end HoverTips
