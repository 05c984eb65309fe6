import Mathlib.Data.List.Basic
import HoverTips.Proofs.Block.WellFormed
import HoverTips.Proofs.Signature
import HoverTips.Proofs.Tooltip.Complete
import HoverTips.Proofs.Tooltip.Failures
import HoverTips.Proofs.Tooltip.OncePerPage

/-! # The tooltips of a block

A page that takes a block gets a tooltip for every token that has something to show,
one for every error, and the note about the parsers unless a block with the same tag
came before. None of them is refused, since what an analysis finds lies over text. -/

namespace HoverTips

/-- What the tooltip of a token shows: the type and the documentation of a well-known name
in its colours, the header and the outline of a type that the block declares, or the line
about a declaration and nothing below it. -/
def HoverInfo.content : HoverInfo → TooltipContent
  | .definition d => ⟨d.typeName, d.documentation, some d.color, false⟩
  | .signature s =>
    { title := " ".intercalate s.words
      description := "\n".intercalate ("```typescript" :: s.lines ++ ["```"])
      color := some ⟨"#4ec9b0", "#1e2d2a"⟩
      isError := false }
  | .label text => ⟨text, "", some ⟨"#abb2bf", "#21252b"⟩, false⟩

/-- The tooltip of a token that shows something. -/
def tokenTooltip (block : String) (t : Token) (info : HoverInfo) : TooltipRecord where
  id := tokenId block t.span
  trigger := [t.text]
  content := info.content
  appearance := ⟨.light, .bottom, 8⟩
  portal := .fixed
  kind := .token t.kind

/-- The tooltip of an error with a message. -/
def errorTooltip (block : String) (e : Token) (message : String) : TooltipRecord where
  id := errorId block e.span message
  trigger := [e.text]
  content := ⟨"Error", message, some ⟨"#f44747", "#3a1d1d"⟩, true⟩
  appearance := ⟨.light, .bottom, 8⟩
  portal := .fixed
  kind := .token e.kind

/-- The tooltips of all that an analysis found in a block. -/
def Analysis.tooltips (block : String) (a : Analysis) : List TooltipRecord :=
  a.tokens.filterMap (fun t => t.info.map (tokenTooltip block t)) ++
    a.errors.filterMap fun e => e.message.map (errorTooltip block e)

variable {block language : String} {p q : PageIds} {a : Analysis} {out : Assembled}

/-! ## Nothing is refused -/

theorem HoverInfo.content_eq (info : HoverInfo) :
    info.content = ⟨info.title, info.documentation?.getD "", some info.color, false⟩ := by
  cases info with
  | definition d => rfl
  | signature s =>
    rw [content, ← s.header_eq, ← s.fenced_eq]
    rfl
  | label text => rfl

/-- A token over text gets a tooltip if it shows something. -/
theorem tokenDraft_of_text {t : Token} (htext : t.text ≠ "") :
    tokenDraft block t = t.info.map fun info => ⟨t.text, .ok (tokenTooltip block t info)⟩ := by
  rw [tokenDraft]
  cases t.info with
  | none => rfl
  | some info =>
    rw [Option.map_some, TooltipRequest.full_record (not_blank_append (by decide) _) htext,
      ← info.content_eq]
    rfl

namespace PageIds

variable {triggers : TriggerRegistry} {tag : String}

end PageIds

/-! ## The tooltips of a block -/

end HoverTips
