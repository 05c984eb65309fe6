import HoverTips.Block.Parser
import HoverTips.Proofs.Tree.Faults

/-! # When a block is valid

A parser finishes every block whose tree lies in the wrapped text, and calls it
valid exactly when the tree has no fault in the source. Faults at the very ends
of the source count, and those in the wrapper alone do not. -/

namespace HoverTips

theorem Flavor.typeChecking_iff (flavor : Flavor) :
    flavor.capabilities.typeChecking = true ↔ flavor = .typescript ∨ flavor = .tsx := by
  cases flavor <;> decide

theorem Text.ne_nil_of_not_blank {cs : List Char} (h : Text.isBlank cs = false) : cs ≠ [] := by
  rintro rfl
  cases h

/-- A block that is not blank is valid exactly when no node of its tree covers
text out of place in the source, stands for a token that the source lacks, or,
where types are checked, refuses an initializer there. Its errors are those of
such nodes. -/
theorem Flavor.parse_isValid_iff (trees : Trees) (r : Registry) (flavor : Flavor)
    {source : List Char} {treeOf : String → Option Tree.Node} {tree : Tree.Node}
    (hfull : Text.isBlank source = false) (hload : trees flavor.grammar = .ok treeOf)
    (htree : treeOf (String.ofList source) = some tree)
    (hfits : ∀ n ∈ tree.nodes, n.label.Fits (Wrapped.ofSource source).text) :
    ∃ a, (flavor.parser trees).parse r source = .ok a ∧
      (a.isValid = true ↔ ∀ n ∈ tree.nodes,
        ¬n.Unplaced (.ofSource source) ∧ ¬n.Lacking (.ofSource source) ∧
          (flavor = .typescript ∨ flavor = .tsx →
            ∀ d, n.Refused (.ofSource source) d → ¬(Wrapped.ofSource source).Locates d.span)) ∧
      Tree.FaultsReported (.ofSource source) flavor.capabilities.typeChecking tree a.errors := by
  have hall : tree.Fits (Wrapped.ofSource source).text := Tree.Node.all_iff.mpr hfits
  obtain ⟨found, hfound⟩ := Tree.walk_succeeds r flavor.capabilities.typeChecking hall
  have hfaults := Tree.walk_faultsReported hfound (Text.ne_nil_of_not_blank hfull) hall
  refine ⟨.ofWalk flavor.name flavor.capabilities found.tokens found.errors, ?_, ?_, hfaults⟩
  · have hwalk : walkFlavor r flavor source (some tree) = .ok found := hfound
    simp [Flavor.parser, hfull, hload, htree, analyzeFlavor, hwalk]
  · have hvalid : (Analysis.ofWalk flavor.name flavor.capabilities found.tokens
        found.errors).isValid = found.errors.isEmpty := rfl
    rw [hvalid, List.isEmpty_iff, ← flavor.typeChecking_iff]
    exact hfaults.eq_nil_iff

/-- The text out of place reaches from the wrapper to the end of the source. -/
theorem Flavor.parse_isValid_stray :
    (∀ n ∈ (Tree.Node.mk ⟨"program", true, false, false, ⟨0, 16⟩, []⟩
        [.mk ⟨"ERROR", true, true, false, ⟨7, 11⟩, []⟩ []]).nodes,
      n.label.Fits (Wrapped.ofSource "é".toList).text) ∧
    ∃ a, (Flavor.typescript.parser fun _ => .ok fun _ =>
        some (.mk ⟨"program", true, false, false, ⟨0, 16⟩, []⟩
          [.mk ⟨"ERROR", true, true, false, ⟨7, 11⟩, []⟩ []])).parse ⟨.empty, false⟩ "é".toList = .ok a ∧
      a.isValid = false := by
  have hfits : ∀ n ∈ (Tree.Node.mk ⟨"program", true, false, false, ⟨0, 16⟩, []⟩
      [.mk ⟨"ERROR", true, true, false, ⟨7, 11⟩, []⟩ []]).nodes,
      n.label.Fits (Wrapped.ofSource "é".toList).text := by
    decide
  refine ⟨hfits, ?_⟩
  have hfull : Text.isBlank "é".toList = false := by decide
  obtain ⟨a, ha, hvalid, _⟩ := Flavor.parse_isValid_iff (fun _ => .ok fun _ =>
    some (.mk ⟨"program", true, false, false, ⟨0, 16⟩, []⟩
      [.mk ⟨"ERROR", true, true, false, ⟨7, 11⟩, []⟩ []])) ⟨.empty, false⟩ .typescript hfull rfl rfl hfits
  refine ⟨a, ha, Bool.eq_false_iff.mpr fun h => ?_⟩
  exact (hvalid.mp h _ (.tail _ (.head _))).1 ⟨rfl, rfl, by decide⟩

end HoverTips
