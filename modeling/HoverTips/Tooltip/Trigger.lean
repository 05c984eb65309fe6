import HoverTips.Text.Case
import HoverTips.Text.Expression
import HoverTips.Tooltip.Request

/-!
# Global triggers

A global trigger is a phrase that opens the same tooltip wherever it stands in the prose of a page.
The registry keeps one trigger per phrase; a phrase that is added again replaces the old trigger and
moves to the end. A phrase that cannot be searched for is refused.
-/

namespace HoverTips

/-- A phrase with its preset tooltip. -/
structure GlobalTrigger where
  phrase : String
  /-- More triggers of the tooltip, after the phrase itself. -/
  aliases : List String
  title : String
  description : String
  theme : Theme
  deriving DecidableEq, Repr

namespace GlobalTrigger

/-- Takes a character of the phrase into the slug: letters and numbers in lower case, and one hyphen
for what stands between them. -/
def slugStep (slug : List Char) (c : Char) : List Char :=
  if Text.isAlphanumeric c then slug ++ Text.lowercase c
  else if slug.getLast? == some '-' then slug
  else slug ++ ['-']

/-- The phrase as it stands in an id. -/
def slug (phrase : String) : String :=
  let slug := phrase.toList.foldl slugStep []
  String.ofList (Text.trimEndOf (· == '-') (Text.trimStartOf (· == '-') slug))

def id (t : GlobalTrigger) : String := "global-" ++ slug t.phrase

def request (t : GlobalTrigger) : TooltipRequest :=
  .withTheme t.theme <|
    .full t.id (t.phrase :: t.aliases) (.plain t.title t.description) .global

/-- The phrase without white space at its ends: what is looked for in the prose. -/
def pattern (t : GlobalTrigger) : List Char := Text.trim t.phrase.toList

/-- The trigger that every site has. -/
def deepDive : GlobalTrigger where
  phrase := "DD"
  aliases := ["Deep Dive"]
  title := "Deep Dive"
  description :=
    "An in-depth section: internals, trade-offs and edge cases beyond the basic pattern."
  theme := .dark

end GlobalTrigger

/-- Whether an end of a pattern asks for a word boundary: it does when it is a letter, a number or
the underscore. -/
def asksBoundary (c : Char) : Bool := Text.isAlphanumeric c || c == '_'

/-- What an expression asks for at an end of a pattern. -/
def edge : Option Char → String
  | some c => if asksBoundary c then Text.boundaryMark else ""
  | none => ""

def GlobalTrigger.expression (t : GlobalTrigger) : String :=
  edge t.pattern.head? ++ String.ofList (Text.escape t.pattern) ++ edge t.pattern.getLast?

/-- Whether the pattern stands at the front of a text, with word boundaries at the ends that ask for
them. -/
def occursHere (pattern : List Char) (before : Option Char) (text : List Char) : Bool :=
  pattern.isPrefixOf text &&
    (match pattern.head? with
      | some first => !asksBoundary first || Text.isWordBoundary before (some first)
      | none => true) &&
    (match pattern.getLast? with
      | some last =>
        !asksBoundary last || Text.isWordBoundary (some last) (text.drop pattern.length).head?
      | none => true)

/-- Whether the pattern stands anywhere in a text, with word boundaries at the ends that ask for
them. -/
def occursIn (pattern : List Char) (before : Option Char) : List Char → Bool
  | [] => occursHere pattern before []
  | c :: cs => occursHere pattern before (c :: cs) || occursIn pattern (some c) cs

/-- The triggers of a site, in the order of their last addition. -/
structure TriggerRegistry where
  triggers : List GlobalTrigger

namespace TriggerRegistry

def empty : TriggerRegistry := ⟨[]⟩

def size (r : TriggerRegistry) : Nat := r.triggers.length

def isEmpty (r : TriggerRegistry) : Bool := r.triggers.isEmpty

def get? (r : TriggerRegistry) (phrase : String) : Option GlobalTrigger :=
  r.triggers.find? (·.phrase == phrase)

/-- Adds a trigger behind the others, in place of one with its phrase. A blank phrase is refused, and
one whose expression the engine does not take. The registry is handed back as it is then. -/
def add (engine : Text.Engine) (r : TriggerRegistry) (t : GlobalTrigger) :
    Except Refusal Unit × TriggerRegistry :=
  if t.pattern.isEmpty then (.error (.invalidPhrase t.phrase), r)
  else if !engine t.expression then (.error (.invalidPhrase t.phrase), r)
  else (.ok (), ⟨r.triggers.filter (·.phrase != t.phrase) ++ [t]⟩)

/-- The registry after an addition, whether or not it went well. -/
def offer (engine : Text.Engine) (r : TriggerRegistry) (t : GlobalTrigger) : TriggerRegistry :=
  (r.add engine t).2

def standard (engine : Text.Engine) : TriggerRegistry := empty.offer engine .deepDive

def occurring (r : TriggerRegistry) (text : String) : List GlobalTrigger :=
  let chars := text.toList
  r.triggers.filter fun t => occursIn t.pattern none chars

end TriggerRegistry

/-- The theme with a given name, in capital or small letters. -/
def Theme.ofName? (s : String) : Option Theme :=
  match Text.asciiLowercase s with
  | "light" => some .light
  | "dark" => some .dark
  | _ => none

end HoverTips
