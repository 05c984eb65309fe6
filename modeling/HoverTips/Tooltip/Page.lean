import HoverTips.Digest
import HoverTips.Fence
import HoverTips.Tooltip.Trigger

/-!
# The tooltips of a page

The tooltips of one page have distinct ids. A page remembers the ids it has; a block's tooltips are
added one after the other, and an id that the page has already ends the addition with an error. The
ids of the tooltips before it stay on the page.

The note about a fence tag's parsers, and the tooltip of a phrase, are made once a page.
-/

namespace HoverTips

/-- The ids of a page, the latest first. -/
structure PageIds where
  page : String
  ids : List String
  deriving DecidableEq, Repr

/-- A tooltip's id stands on its page already. -/
structure DuplicateId where
  page : String
  id : String
  deriving DecidableEq, Repr

def DuplicateId.message (e : DuplicateId) : String :=
  "duplicate tooltip id `" ++ e.id ++ "` on page " ++ e.page

/-- A tooltip that was refused, under the term it was for. -/
structure Rejected where
  term : String
  refusal : Refusal
  deriving DecidableEq, Repr

/-- The tooltips of one call, and those that were refused. -/
structure Assembled where
  records : List TooltipRecord
  rejected : List Rejected
  deriving DecidableEq, Repr

/-- A tooltip to be made under a term, or the refusal of it. -/
structure Draft where
  term : String
  record : Except Refusal TooltipRecord

namespace PageIds

def empty (page : String) : PageIds := ⟨page, []⟩

def contains (p : PageIds) (id : String) : Bool := p.ids.contains id

def size (p : PageIds) : Nat := p.ids.length

def isEmpty (p : PageIds) : Bool := p.ids.isEmpty

/-- Adds drafts in order. Refusals are set aside; the first id that stands on the page already ends
the addition. The page is handed back with the ids it has then. -/
def accept (p : PageIds) : List Draft → Except DuplicateId Assembled × PageIds
  | [] => (.ok ⟨[], []⟩, p)
  | d :: ds =>
    match d.record with
    | .error refusal =>
      let (rest, after) := p.accept ds
      (rest.map fun a => { a with rejected := ⟨d.term, refusal⟩ :: a.rejected }, after)
    | .ok record =>
      if p.contains record.id then (.error ⟨p.page, record.id⟩, p)
      else
        let (rest, after) := accept { p with ids := record.id :: p.ids } ds
        (rest.map fun a => { a with records := record :: a.records }, after)

end PageIds

def tokenDraft (block : String) (t : Token) : Option Draft :=
  t.info.map fun info =>
    { term := t.text
      record := TooltipRequest.record <| .full
        ("tok-" ++ Digest.hex (Digest.ofSpan block t.span.start t.span.stop)) [t.text]
        ⟨info.title, info.documentation?.getD "", some info.color, false⟩ (.token t.kind) }

def errorDraft (block : String) (e : Token) : Draft :=
  let message := e.message.getD "Syntax error."
  { term := e.text
    record := TooltipRequest.record <| .full
      ("err-" ++ Digest.hex (Digest.ofMessage block e.span.start e.span.stop message)) [e.text]
      ⟨"Error", message, some Palette.error.color, true⟩ (.token e.kind) }

/-- The tag that the note about a block's parsers goes under. -/
def noteTag (info : String) : String :=
  let tag := fenceTag info
  if tag == "" then "plain" else tag

def noteId (tag : String) : String := "parser-" ++ tag

def onOff (on : Bool) : String := if on then "on" else "off"

def noteText (a : Analysis) : String :=
  "Parsers: " ++ ", ".intercalate a.parsers ++ ". JSX: " ++ onOff a.capabilities.jsx ++
    ". Type checking: " ++ onOff a.capabilities.typeChecking ++ "." ++
    if a.usesFallback then " Definitions only." else ""

def noteDraft (tag : String) (a : Analysis) : Draft where
  term := noteId tag
  record := TooltipRequest.record <|
    .full (noteId tag) ["hover"] (.plain (tag ++ " block") (noteText a)) .parser

def blockDrafts (block : String) (a : Analysis) : List Draft :=
  a.tokens.filterMap (tokenDraft block) ++ a.errors.map (errorDraft block)

namespace PageIds

/-- Adds what `more` makes of the page after an addition that went well. -/
def acceptThen (p : PageIds) (drafts : List Draft) (more : PageIds → List Draft) :
    Except DuplicateId Assembled × PageIds :=
  match p.accept drafts with
  | (.error e, after) => (.error e, after)
  | (.ok first, after) =>
    let (rest, last) := after.accept (more after)
    (rest.map fun a => ⟨first.records ++ a.records, first.rejected ++ a.rejected⟩, last)

/-- Adds the tooltips of a block: one for every token with hover content, one for every error, and
the note about the parsers of its tag when the page has none yet. -/
def assembleBlock (p : PageIds) (block info : String) (a : Analysis) :
    Except DuplicateId Assembled × PageIds :=
  let tag := noteTag info
  p.acceptThen (blockDrafts block a) fun after =>
    if after.contains (noteId tag) then [] else [noteDraft tag a]

/-- Adds the tooltips of triggers that the page has none for yet, one after the other. -/
def acceptTriggers (p : PageIds) : List GlobalTrigger → Except DuplicateId Assembled × PageIds
  | [] => (.ok ⟨[], []⟩, p)
  | t :: ts =>
    if p.contains t.id then p.acceptTriggers ts
    else
      match p.accept [⟨t.phrase, t.request.record⟩] with
      | (.error e, after) => (.error e, after)
      | (.ok first, after) =>
        let (rest, last) := after.acceptTriggers ts
        (rest.map fun a => ⟨first.records ++ a.records, first.rejected ++ a.rejected⟩, last)

def assembleProse (p : PageIds) (triggers : TriggerRegistry) (prose : String) :
    Except DuplicateId Assembled × PageIds :=
  p.acceptTriggers (triggers.occurring prose)

end PageIds

end HoverTips
