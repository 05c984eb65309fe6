import HoverTips.Proofs.Tree.Listing

/-! # Nested trees

In the tree of a grammar children lie inside their parent, one after the other. When
no token has a token below it, the tokens of such a tree follow each other in the
text as they do in pre-order, without an overlap, whatever else is in the tree:
faulty nodes, and nodes that the wrapper cuts off (`walk_tokens_in_order`). -/

namespace HoverTips.Tree

variable {w : Wrapped}

/-- Throughout the tree children lie inside their parent, in order and without an
overlap. -/
inductive Node.WellNested : Node → Prop
  | mk {l : Label} {cs : List Node}
      (inside : ∀ c ∈ cs, l.span.start ≤ c.span.start ∧ c.span.stop ≤ l.span.stop)
      (apart : cs.Pairwise fun c d => c.span.stop ≤ d.span.start)
      (below : ∀ c ∈ cs, c.WellNested) : Node.WellNested (.mk l cs)

/-- The children of a node lie inside it, in order and without an overlap. -/
def Node.NestsChildren (n : Node) : Prop :=
  (∀ c ∈ n.children, n.span.start ≤ c.span.start ∧ c.span.stop ≤ n.span.stop) ∧
    n.children.Pairwise fun c d => c.span.stop ≤ d.span.start

instance (n : Node) : Decidable n.NestsChildren :=
  inferInstanceAs (Decidable (_ ∧ _))

mutual

theorem Node.wellNested_of_nodes : ∀ {n : Node}, (∀ m ∈ n.nodes, m.NestsChildren) → n.WellNested
  | .mk l cs, h => by
    rw [Node.nodes_mk, List.forall_mem_cons] at h
    exact .mk h.1.1 h.1.2 (wellNested_of_flatMap h.2)

theorem wellNested_of_flatMap : ∀ {cs : List Node},
    (∀ m ∈ cs.flatMap Node.nodes, m.NestsChildren) → ∀ c ∈ cs, c.WellNested
  | [], _ => by simp
  | c :: cs, h => by
    rw [List.flatMap_cons, List.forall_mem_append] at h
    exact List.forall_mem_cons.mpr ⟨Node.wellNested_of_nodes h.1, wellNested_of_flatMap h.2⟩

end

theorem Node.wellNested_iff {n : Node} : n.WellNested ↔ ∀ m ∈ n.nodes, m.NestsChildren := by
  refine ⟨fun h => ?_, Node.wellNested_of_nodes⟩
  induction h with
  | @mk l cs inside apart _ ih =>
    intro m hm
    rw [Node.nodes_mk] at hm
    rcases List.mem_cons.mp hm with rfl | hm
    · exact ⟨inside, apart⟩
    · obtain ⟨c, hc, hm⟩ := List.mem_flatMap.mp hm
      exact ih c hc m hm

instance (n : Node) : Decidable n.WellNested := decidable_of_iff _ Node.wellNested_iff.symm

/-- No node that reads as an identifier or a keyword has one below it. -/
def Node.TokensAreLeaves (root : Node) : Prop :=
  ∀ n ∈ root.nodes, n.isToken = true → ∀ c ∈ n.children, ∀ m ∈ c.nodes, m.isToken = false

instance (root : Node) : Decidable root.TokensAreLeaves :=
  inferInstanceAs (Decidable (∀ n ∈ root.nodes, _))

theorem Node.TokensAreLeaves.child {l : Label} {cs : List Node} {c : Node}
    (h : (Node.mk l cs).TokensAreLeaves) (hc : c ∈ cs) : c.TokensAreLeaves := by
  intro n hn
  refine h n ?_
  rw [Node.nodes_mk]
  exact List.mem_cons_of_mem _ (List.mem_flatMap.mpr ⟨c, hc, hn⟩)

/-- A nested tree lies inside its root. -/
theorem Node.WellNested.inside {n : Node} (h : n.WellNested) :
    ∀ m ∈ n.nodes, n.span.start ≤ m.span.start ∧ m.span.stop ≤ n.span.stop := by
  induction h with
  | @mk l cs inside _ _ ih =>
    intro m hm
    rw [Node.nodes_mk] at hm
    rcases List.mem_cons.mp hm with rfl | hm
    · exact ⟨Nat.le_refl _, Nat.le_refl _⟩
    · obtain ⟨c, hc, hm⟩ := List.mem_flatMap.mp hm
      obtain ⟨hstart, hstop⟩ := inside c hc
      obtain ⟨hlo, hhi⟩ := ih c hc m hm
      exact ⟨Nat.le_trans hstart hlo, Nat.le_trans hhi hstop⟩

/-- Tokens of a nested tree that are leaves of it do not overlap. -/
theorem Node.WellNested.tokens_apart {n : Node} (h : n.WellNested) (hleaves : n.TokensAreLeaves) :
    n.nodes.Pairwise fun m k => m.isToken = true → k.isToken = true →
      m.span.stop ≤ k.span.start := by
  induction h with
  | @mk l cs _ apart below ih =>
    rw [Node.nodes_mk, List.pairwise_cons, List.pairwise_flatMap]
    refine ⟨fun k hk hroot htoken => ?_, fun c hc => ih c hc (hleaves.child hc), ?_⟩
    · obtain ⟨c, hc, hk⟩ := List.mem_flatMap.mp hk
      have hroot_mem : Node.mk l cs ∈ (Node.mk l cs).nodes := by
        rw [Node.nodes_mk]
        exact List.mem_cons_self
      exact absurd htoken (by simp [hleaves _ hroot_mem hroot c hc k hk])
    · -- nodes below two children are as far apart as the children
      refine apart.imp_of_mem fun {c d} hc hd hcd m hm k hk _ _ => ?_
      have hm := ((below c hc).inside m hm).2
      have hk := ((below d hd).inside k hk).1
      exact Nat.le_trans hm (Nat.le_trans hcd hk)

theorem tokenVisits_apart {root : Node} (h : root.WellNested) (hleaves : root.TokensAreLeaves) :
    (root.tokenVisits w).Pairwise fun u v => u.node.span.stop ≤ v.node.span.start := by
  have hvisits := List.pairwise_map.mp (h.tokens_apart hleaves)
  refine (hvisits.sublist List.filter_sublist).imp_of_mem fun {u v} hu hv huv => ?_
  have htoken : ∀ v ∈ root.tokenVisits w, v.node.isToken = true := fun v hv =>
    (Node.hasToken_iff.mp (List.mem_filter.mp hv).2).token
  exact huv (htoken u hu) (htoken v hv)

/-- Pairs of one list, in the list that goes along with it. -/
theorem pairwise_of_forall₂ {α β : Type} {P : α → β → Prop} {R : α → α → Prop} {S : β → β → Prop}
    {xs : List α} {ys : List β} (h : List.Forall₂ P xs ys) (hxs : xs.Pairwise R)
    (hstep : ∀ x x' y y', P x y → P x' y' → R x x' → S y y') : ys.Pairwise S := by
  induction h with
  | nil => exact .nil
  | @cons x y xs ys hxy hrest ih =>
    rw [List.pairwise_cons] at hxs ⊢
    refine ⟨fun y' hy' => ?_, ih hxs.2⟩
    obtain ⟨i, hi, rfl⟩ := List.getElem_of_mem hy'
    have hlen := hrest.length_eq
    exact hstep x xs[i] y ys[i] hxy (hrest.get _ _) (hxs.1 _ (List.getElem_mem _))

/-- The tokens of a walk over a nested tree whose tokens are leaves do not overlap,
and each is before those that come out after it. -/
theorem walk_tokens_in_order {r : Registry} {typeChecking : Bool} {root : Node}
    {found : WalkResult} (h : walk r w typeChecking root = .ok found) (hnested : root.WellNested)
    (hleaves : root.TokensAreLeaves) :
    found.tokens.Pairwise fun t u => t.span.stop ≤ u.span.start := by
  obtain ⟨sightings, hnoted, htokens⟩ := sightings_of_walk h
  have hlies : List.Forall₂ (fun v t => w.toSource? v.node.span = some t.span)
      (root.tokenVisits w) found.tokens :=
    forall₂_through hnoted htokens fun v s t hs ht => by
      obtain ⟨piece, _, rfl⟩ := Sighting.token_eq_ok_iff.mp ht
      exact hs.lies
  refine pairwise_of_forall₂ hlies (tokenVisits_apart hnested hleaves) ?_
  intro u v t t' ht ht' huv
  rw [Wrapped.toSource?_exact ht, Wrapped.toSource?_exact ht'] at huv
  simp only at huv
  omega

end HoverTips.Tree
