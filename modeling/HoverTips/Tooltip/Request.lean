import HoverTips.Text.Words
import HoverTips.Tooltip.Record

/-!
# Requests for tooltips

Every record goes through `TooltipRequest.record`, which refuses a request that lacks what a tooltip
needs and fills in the rest.
-/

namespace HoverTips

/-- What a caller asks for. Everything that may be missing is checked when the record is made. -/
structure TooltipRequest where
  id : Option String
  trigger : Option (List String)
  content : Option TooltipContent
  appearance : Option Appearance
  portal : Option PortalStrategy
  kind : TooltipKind
  deriving DecidableEq, Repr

/-- Why a tooltip or a phrase is refused. -/
inductive Refusal where
  | missingId
  | missingContent (id : String)
  | missingTrigger (id : String)
  | emptyTrigger (id : String)
  | invalidPhrase (phrase : String)
  deriving DecidableEq, Repr

def Refusal.message : Refusal → String
  | missingId => "tooltip has no id"
  | missingContent id => "tooltip `" ++ id ++ "` has no content"
  | missingTrigger id => "tooltip `" ++ id ++ "` has no trigger"
  | emptyTrigger id => "tooltip `" ++ id ++ "` has an empty trigger"
  | invalidPhrase phrase => "global trigger phrase `" ++ phrase ++ "` is not usable"

namespace TooltipRequest

/-- A request with everything a tooltip needs, in standard appearance. -/
def full (id : String) (trigger : List String) (content : TooltipContent) (kind : TooltipKind) :
    TooltipRequest :=
  { id := some id, trigger := some trigger, content := some content, appearance := none,
    portal := none, kind }

/-- The request with another theme and its appearance as it was. -/
def withTheme (theme : Theme) (r : TooltipRequest) : TooltipRequest :=
  { r with appearance := some { r.appearance.getD .standard with theme } }

/-- The record for a request. The id must not be blank, and no trigger may be empty. -/
def record (r : TooltipRequest) : Except Refusal TooltipRecord :=
  match r.id.filter fun id => !Text.isBlank id.toList with
  | none => .error .missingId
  | some id =>
    match r.content, r.trigger with
    | none, _ => .error (.missingContent id)
    | some _, none => .error (.missingTrigger id)
    | some content, some trigger =>
      if trigger.isEmpty || trigger.any (· == "") then .error (.emptyTrigger id)
      else .ok
        { id, trigger, content, appearance := r.appearance.getD .standard,
          portal := r.portal.getD .fixed, kind := r.kind }

end TooltipRequest

end HoverTips
