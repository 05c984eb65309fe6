import HoverTips.Markdown.Page
import HoverTips.Tooltip.Page
import HoverTips.Proofs.Text.Fields

/-! # Tags of tags

A block keeps the tag of its fence, and whoever looks at the block takes the tag
of that tag. A tag is one word in lower case, so all that can change the second
time is its ending: one more `:preview` is dropped. Capitals hide an ending from
the first reading, and a doubled ending outlives it; every other tag is read the
same way ever after, and the block is treated as its fence says. -/

namespace HoverTips

/-- A tag that still ends in what asks for a preview. -/
def KeepsPreview (tag : String) : Prop := ":preview".toList <:+ tag.toList

instance (tag : String) : Decidable (KeepsPreview tag) :=
  decidable_of_iff _ List.isSuffixOf_iff_suffix

/-- What a word becomes as a tag has no white space, and lower case only. -/
theorem fenceTag_chars (info : String) :
    ∀ c ∈ (fenceTag info).toList, Text.isSpace c = false ∧ c.toLower = c := by
  unfold fenceTag
  split
  · simp
  · rename_i word rest hfields
    have hmem : word ∈ Text.fields info.toList := by
      rw [hfields]
      exact .head _
    have hword := Text.noSpace_of_mem_fields hmem
    intro c hc
    rw [Text.asciiLowercase, String.toList_ofList] at hc
    obtain ⟨d, hd, rfl⟩ := List.mem_map.mp hc
    have hchar : d ∈ word := by
      simpa using (Text.toList_dropEnding_sublist ":preview" (String.ofList word)).subset hd
    exact ⟨Text.isSpace_toLower (hword d hchar), Text.toLower_toLower d⟩

/-- Reading a tag again drops one more preview ending, and does nothing else. -/
theorem fenceTag_fenceTag (info : String) :
    fenceTag (fenceTag info) = Text.dropEnding ":preview" (fenceTag info) := by
  have hchars := fenceTag_chars info
  generalize fenceTag info = tag at hchars ⊢
  have hfields := Text.fields_of_noSpace fun c hc => (hchars c hc).1
  by_cases hempty : tag.toList = []
  · have htag : tag = "" := String.toList_inj.mp hempty
    subst htag
    decide
  · rw [fenceTag, hfields, if_neg hempty]
    simp only [String.ofList_toList]
    have hlower : ∀ c ∈ (Text.dropEnding ":preview" tag).toList, c.toLower = c := fun c hc =>
      (hchars c ((Text.toList_dropEnding_sublist _ _).subset hc)).2
    rw [Text.asciiLowercase, List.map_congr_left hlower, List.map_id'', String.ofList_toList]
    exact fun _ => rfl

theorem fenceTag_settled_iff (info : String) :
    fenceTag (fenceTag info) = fenceTag info ↔ ¬ KeepsPreview (fenceTag info) := by
  rw [fenceTag_fenceTag]
  exact Text.dropEnding_eq_self_iff (by decide)

theorem noteTag_settled_iff (info : String) :
    noteTag (fenceTag info) = noteTag info ↔ ¬ KeepsPreview (fenceTag info) := by
  constructor
  · intro hsame hkeeps
    have hchanged : fenceTag (fenceTag info) ≠ fenceTag info := fun h =>
      (fenceTag_settled_iff info).mp h hkeeps
    unfold noteTag at hsame
    generalize fenceTag info = tag at *
    have hnonempty : tag ≠ "" := by
      intro h
      rw [h] at hkeeps
      exact absurd hkeeps (by decide)
    have hplain : tag ≠ "plain" := by
      intro h
      rw [h] at hkeeps
      exact absurd hkeeps (by decide)
    simp only [beq_iff_eq, if_neg hnonempty] at hsame
    split at hsame
    · exact hplain hsame.symm
    · exact hchanged hsame
  · intro hsettled
    rw [noteTag, (fenceTag_settled_iff info).mpr hsettled]
    rfl

/-- A tag is read the same way again exactly when no preview ending is left on it.
A block with such a tag goes to the parser of its fence, under the note of its fence. -/
theorem fenceTag_twice (info id source : String) :
    (fenceTag (fenceTag info) = fenceTag info ↔ ¬ KeepsPreview (fenceTag info)) ∧
    (noteTag (Markdown.CodeBlock.ofFence id info source).language = noteTag info ↔
      ¬ KeepsPreview (fenceTag info)) ∧
    (¬ KeepsPreview (fenceTag info) →
      Flavor.ofInfo? (Markdown.CodeBlock.ofFence id info source).language =
        Flavor.ofInfo? info) := by
  refine ⟨fenceTag_settled_iff info, noteTag_settled_iff info, fun hsettled => ?_⟩
  have hsame : fenceTag (fenceTag info) = fenceTag info := (fenceTag_settled_iff info).mpr hsettled
  simp only [Markdown.CodeBlock.ofFence, Flavor.ofInfo?, hsame]

/-- The ending is dropped, the attributes are ignored, and nothing is left to drop. -/
theorem fenceTag_twice_attributes :
    ¬ KeepsPreview (fenceTag "TSX:preview {1,3}") ∧
      Flavor.ofInfo? (Markdown.CodeBlock.ofFence "a.md#0" "TSX:preview {1,3}" "<App />").language =
        some .tsx := by
  have hsettled : ¬ KeepsPreview (fenceTag "TSX:preview {1,3}") := by decide
  refine ⟨hsettled, ?_⟩
  rw [(fenceTag_twice "TSX:preview {1,3}" "a.md#0" "<App />").2.2 hsettled]
  decide

/-- Capitals hide the ending: the tag of the fence asks for no parser, and the tag
of that tag asks for one. -/
theorem fenceTag_twice_capitals :
    fenceTag "ts:PREVIEW" = "ts:preview" ∧ fenceTag (fenceTag "ts:PREVIEW") = "ts" ∧
      Flavor.ofInfo? "ts:PREVIEW" = none ∧
      Flavor.ofInfo? (fenceTag "ts:PREVIEW") = some .typescript := by
  decide

end HoverTips
