import Std.Data.String.ToNat
import HoverTips.Markdown.Page

/-! # Ids of blocks

The blocks of a page are numbered in the order in which they end, so no two have
the same id. -/

namespace HoverTips.Markdown

/-- The id of a page's block at a place. -/
def blockId (page : String) (index : Nat) : String := page ++ "#" ++ toString index

theorem blockId_injective {page : String} {i j : Nat} (h : blockId page i = blockId page j) :
    i = j :=
  Nat.repr_injective ((String.append_right_inj _).mp h)

/-- The blocks so far are numbered in order. -/
def Extraction.Numbered (page : String) (x : Extraction) : Prop :=
  x.blocks.map (·.id) = (List.range x.blocks.length).map (blockId page)

theorem Extraction.Numbered.closeCode {page : String} {x : Extraction} (h : x.Numbered page) :
    (x.closeCode page).Numbered page := by
  unfold Extraction.closeCode
  split
  · simp only [Numbered, List.map_append, List.length_append, List.map_singleton,
      List.length_singleton, List.range_succ]
    rw [h]
    rfl
  · exact h

theorem Extraction.Numbered.addText {page : String} {x : Extraction} (h : x.Numbered page)
    (s : String) : (x.addText s).Numbered page := by
  unfold Extraction.addText
  split <;> exact h

theorem Extraction.Numbered.step {page : String} {x : Extraction} (h : x.Numbered page)
    (e : Event) : (x.step page e).Numbered page := by
  cases e with
  | endCode => exact h.closeCode
  | text s => exact h.addText s
  | _ => exact h

theorem extract_numbered (page : String) (events : List Event) :
    (extract page events).Numbered page := by
  have run : ∀ x : Extraction, x.Numbered page →
      (events.foldl (Extraction.step page) x).Numbered page := by
    induction events with
    | nil => exact fun x h => h
    | cons e events ih => exact fun x h => ih _ (h.step e)
  exact run .initial rfl

/-- No two blocks of a page have the same id. -/
theorem ofEvents_ids_nodup (path : String) (events : List Event) :
    (Page.ofEvents path events).blocks.Pairwise fun b c => b.id ≠ c.id := by
  have hnodup : ((extract path events).blocks.map (·.id)).Nodup := by
    rw [extract_numbered path events]
    exact List.pairwise_map.mpr (List.nodup_range.imp fun hne he => hne (blockId_injective he))
  exact List.pairwise_map.mp hnodup

end HoverTips.Markdown
