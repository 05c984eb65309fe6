import HoverTips.Proofs.Block.WellFormed
import HoverTips.Proofs.Tooltip.Ids
import HoverTips.Proofs.Tree.Tokens

/-! # No finding stands twice

An analysis has one token for a span and one error for a message about a span,
provided that the walked tree has one token for a span. The scan gives way to
the walk where both have a token, and a walk drops an error that stands there
already. -/

namespace HoverTips

namespace Analysis

theorem Distinct.hydrate {a : Analysis} (h : a.Distinct) (r : Registry) : (a.hydrate r).Distinct where
  tokens := by
    refine List.pairwise_map.mpr (h.tokens.imp fun {t u} hne => ?_)
    rwa [Token.hydrate_span, Token.hydrate_span]
  errors := h.errors
  marked := h.marked

theorem ofScan_distinct (r : Registry) (source : List Char) :
    (ofScan (scanGlossary r source)).Distinct :=
  ⟨List.pairwise_map.mp (scanGlossary_nodup r source), .nil, by simp [ofScan]⟩

theorem Distinct.merge {scan walk : Analysis} (hs : scan.Distinct) (hw : walk.Distinct) :
    (scan.merge walk).Distinct where
  tokens := List.pairwise_map.mp (nodup_mergeTokens (List.pairwise_map.mpr hs.tokens)
    (List.pairwise_map.mpr hw.tokens))
  errors := ((sortTokens_perm walk.errors).pairwise_iff fun hne he =>
    hne ⟨he.1.symm, he.2.symm⟩).mpr hw.errors
  marked := fun e he => hw.marked e (mem_sortTokens.mp he)

theorem ofWalk_distinct {parser : String} {capabilities : Capabilities} {w : Wrapped}
    {tokens errors : List Token} (ht : (tokens.map Token.span).Nodup)
    (he : Tree.Reported w errors) : (ofWalk parser capabilities tokens errors).Distinct where
  tokens := List.pairwise_map.mp ht
  errors := he.distinct
  marked := fun e hm => by
    obtain ⟨_, _, hb⟩ := he.built e hm
    obtain ⟨_, _, rfl⟩ := Token.errorAt?_eq_some_iff.mp hb
    rfl

theorem downgraded_distinct (parser : String) (capabilities : Capabilities) (source : List Char)
    (reason : String) : (downgraded parser capabilities source reason).Distinct where
  tokens := .nil
  errors := by
    unfold downgraded
    cases Token.errorAt? source ⟨0, Text.byteLength source⟩ reason <;> simp
  marked := fun e he => ((downgraded_placed parser capabilities source reason).errors_marked e he).2

end Analysis

/-- The tree that the walk over a block visits, if there is a walk. -/
def Trees.walked? (trees : Trees) (source info : String) : Option Tree.Node :=
  (Flavor.ofInfo? info).bind fun flavor =>
    if Text.isBlank source.toList then none else (trees flavor.grammar).toOption.bind (· source)

theorem analyzeFlavor_distinct (r : Registry) (flavor : Flavor) (source : List Char)
    (tree? : Option Tree.Node)
    (hapart : ∀ tree ∈ tree?, Tree.TokensApart (.ofSource source) tree) :
    (analyzeFlavor r flavor source tree?).Distinct := by
  unfold analyzeFlavor
  split
  · rename_i found hwalk
    cases tree? with
    | none => cases hwalk
    | some tree =>
      exact Analysis.ofWalk_distinct (Tree.walk_tokens_apart hwalk (hapart tree rfl))
        (Tree.walk_errors_built hwalk)
  · exact Analysis.downgraded_distinct _ _ _ _

theorem Flavor.contribution_distinct (trees : Trees) (flavor : Flavor) (r : Registry)
    {source info : String} (hf : Flavor.ofInfo? info = some flavor)
    (hapart : ∀ tree ∈ trees.walked? source info,
      Tree.TokensApart (.ofSource source.toList) tree) :
    ((flavor.parser trees).contribution r source.toList).Distinct := by
  simp only [LanguageParser.contribution, Flavor.parser]
  split
  · rename_i a ha
    split at ha
    · cases ha
      exact Analysis.ofWalk_distinct (w := .ofSource source.toList) .nil ⟨by simp, .nil⟩
    · rename_i hfull
      split at ha
      · cases ha
      · rename_i treeOf hload
        cases ha
        refine analyzeFlavor_distinct r flavor source.toList _ fun tree htree => hapart tree ?_
        rw [String.ofList_toList] at htree
        simpa [Trees.walked?, hf, hfull, hload, Except.toOption] using htree
  · exact Analysis.downgraded_distinct _ _ _ _

/-- No finding of a block stands twice. -/
theorem analyzeBlock_distinct (trees : Trees) (r : Registry) (source info : String)
    (hapart : ∀ tree ∈ trees.walked? source info,
      Tree.TokensApart (.ofSource source.toList) tree) :
    (analyzeBlock trees r source info).Distinct := by
  unfold analyzeBlock parserFor?
  cases hf : Flavor.ofInfo? info with
  | none => exact (Analysis.ofScan_distinct r source.toList).hydrate r
  | some flavor =>
    rw [Option.map_some, analyzeWith_some]
    exact ((Analysis.ofScan_distinct r source.toList).merge
      (flavor.contribution_distinct trees r hf hapart)).hydrate r

end HoverTips
