import HoverTips.Glossary.Standard
import HoverTips.Settings.Config
import HoverTips.Tooltip.Trigger

/-!
# The vocabulary of a project

Settings add terms to the standard glossary and phrases to the standard triggers. A term never
changes a built-in definition; a phrase takes the place of an earlier one.
-/

namespace HoverTips

def TermSetting.definition (t : TermSetting) : Definition :=
  .ofPalette t.typeName t.documentation .project

/-- The trigger of a phrase. A theme that is not known counts as the light one. -/
def PhraseSetting.trigger (p : PhraseSetting) : GlobalTrigger where
  phrase := p.phrase
  aliases := p.aliases
  title := p.title
  description := p.description
  theme := (p.theme.bind Theme.ofName?).getD .light

namespace Config

def registry (engine : Text.Engine) (c : Config) : Registry :=
  (Glossary.standard.insertAll (c.terms.map fun t => (t.name, t.definition))).build engine

/-- The standard triggers and the phrases of the project that can be used. -/
def triggers (engine : Text.Engine) (c : Config) : TriggerRegistry :=
  c.phrases.foldl (fun r p => r.offer engine p.trigger) (.standard engine)

end Config

end HoverTips
