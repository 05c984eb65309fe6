import HoverTips.Proofs.Tree.Faults

/-! # Tokens of a tree

A walk has a token for a node only where it reads as an identifier or keyword,
marks no fault and lies in the source. When no two such nodes lie over the same
span, no two tokens of the walk do. -/

namespace HoverTips.Tree

variable {w : Wrapped}

/-- The node has a token of the walk. -/
structure Node.YieldsToken (w : Wrapped) (n : Node) : Prop where
  token : n.isToken = true
  sound : n.label.isMissing = false ∧ ¬n.Unplaced w
  inside : (w.toSource? n.span).isSome = true

/-- No two nodes with a token lie over the same span. -/
def TokensApart (w : Wrapped) (root : Node) : Prop :=
  root.nodes.Pairwise fun m n => m.YieldsToken w → n.YieldsToken w → m.span ≠ n.span

theorem yieldsToken_of_finding {typeChecking : Bool} {v : Visit} {s : Sighting}
    (h : finding w typeChecking v = .ok (some (.sighting s))) : v.node.YieldsToken w := by
  obtain ⟨hfault, htoken, hspan⟩ := finding_sighting h
  exact ⟨htoken, syntaxFault_eq_none_iff.mp hfault, by rw [hspan]; rfl⟩

/-- The sightings of a tree lie over different spans. -/
theorem sightings_apart {typeChecking : Bool} {root : Node} {fs : List Finding}
    (h : findings w typeChecking root = .ok fs) (hapart : TokensApart w root) :
    (fs.filterMap Finding.sighting?).Pairwise fun s t => s.span ≠ t.span := by
  obtain ⟨hall, rfl⟩ := filterMapM_eq_ok_iff.mp h
  rw [List.filterMap_filterMap, List.pairwise_filterMap]
  refine (List.pairwise_map.mp hapart).imp_of_mem fun {u v} hu hv hne s hs t ht he => ?_
  have sighted : ∀ {v : Visit} {s : Sighting}, v ∈ root.visits [] →
      ((finding w typeChecking v).toOption.join).bind Finding.sighting? = some s →
      finding w typeChecking v = .ok (some (.sighting s)) := by
    intro v s hv hs
    obtain ⟨o, ho⟩ := hall v hv
    obtain ⟨f, hf, hfs⟩ := Option.bind_eq_some_iff.mp hs
    rw [ho] at hf ⊢
    cases f with
    | diagnostic d => cases hfs
    | sighting s' =>
      obtain rfl : s' = s := Option.some.inj hfs
      rw [show o = some (.sighting s') from hf]
  have hs := sighted hu hs
  have ht := sighted hv ht
  exact hne (yieldsToken_of_finding hs) (yieldsToken_of_finding ht)
    (Wrapped.toSource?_injective (finding_sighting hs).2.2 (he ▸ (finding_sighting ht).2.2))

/-- The tokens of a walk lie over different spans. -/
theorem walk_tokens_apart {r : Registry} {typeChecking : Bool} {root : Node} {found : WalkResult}
    (h : walk r w typeChecking root = .ok found) (hapart : TokensApart w root) :
    (found.tokens.map Token.span).Nodup := by
  obtain ⟨fs, hfs, htokens, _⟩ := walk_eq_ok_iff.mp h
  rw [spans_of_tokens htokens]
  exact List.pairwise_map.mpr (sightings_apart hfs hapart)

end HoverTips.Tree
