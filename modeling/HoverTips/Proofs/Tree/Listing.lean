import Mathlib.Data.List.Forall2
import HoverTips.Proofs.Tree.Tokens

/-! # The nodes with a token

A walk has one token for each node that reads as an identifier or a keyword,
marks no fault and lies in the source (`Node.hasToken`), in pre-order, and no
other token. What it notes about such a node is read off the node and its
parent (`Visit.Noted`), so sightings and tokens go along with the visits of
these nodes one by one. -/

namespace HoverTips.Tree

variable {w : Wrapped}

/-- Whether a node reads as an identifier. -/
def Node.isIdentifier (n : Node) : Bool := n.isNamed && isIdentifierKind n.kind

/-- Whether a node has a token: it reads as an identifier or a keyword, neither
stands for missing text nor for text out of place, and covers some of the source
and nothing else. -/
def Node.hasToken (w : Wrapped) (n : Node) : Bool :=
  n.isToken && !n.label.isMissing && !n.label.isError &&
    decide (n.span.start < n.span.stop ∧ w.window.start ≤ n.span.start ∧
      n.span.stop ≤ w.window.stop)

/-- The visits of the nodes with a token, in pre-order. -/
def Node.tokenVisits (w : Wrapped) (root : Node) : List Visit :=
  (root.visits []).filter (·.node.hasToken w)

theorem Node.hasToken_iff {n : Node} : n.hasToken w = true ↔ n.YieldsToken w := by
  simp only [Node.hasToken, Bool.and_eq_true, Bool.not_eq_true', decide_eq_true_iff, and_assoc]
  constructor
  · rintro ⟨htoken, hpresent, hplaced, hlt, hlo, hhi⟩
    refine ⟨htoken, ⟨hpresent, fun hu => ?_⟩, ?_⟩
    · rw [hu.error] at hplaced
      cases hplaced
    · rw [Wrapped.toSource?_eq_some_iff.mpr ⟨hlt, hlo, hhi, rfl⟩]
      rfl
  · rintro ⟨htoken, ⟨hpresent, hsound⟩, hinside⟩
    obtain ⟨span, hspan⟩ := Option.isSome_iff_exists.mp hinside
    obtain ⟨hlt, hlo, hhi, _⟩ := Wrapped.toSource?_eq_some_iff.mp hspan
    refine ⟨htoken, hpresent, Bool.eq_false_iff.mpr fun herror => ?_, hlt, hlo, hhi⟩
    -- in the source, all text out of place is a fault
    refine hsound ⟨herror, hpresent, ?_⟩
    simp only [Node.shared, Wrapped.window] at hlo hhi ⊢
    omega

/-- What a walk notes about a node with a token. -/
inductive Visit.Noted (w : Wrapped) (v : Visit) : Sighting → Prop
  | identifier {span : Span} {name : String} {info : Option HoverInfo}
      (reads : v.node.isIdentifier = true) (lies : w.toSource? v.node.span = some span)
      (named : v.node.text w.text = .ok name) (declares : declaredInfo w.text v name = .ok info) :
      Noted w v ⟨span, .identifier, info.map (name, ·), isBindingKind v.node.kind⟩
  | keyword {span : Span} (reads : v.node.isIdentifier = false)
      (lies : w.toSource? v.node.span = some span) : Noted w v ⟨span, .keyword, none, false⟩

theorem keywordFinding_noted {v : Visit} (hreads : v.node.isIdentifier = false)
    (hin : (w.toSource? v.node.span).isSome = true) :
    ∃ s, keywordFinding w v.node = some (.sighting s) ∧ v.Noted w s := by
  obtain ⟨span, hspan⟩ := Option.isSome_iff_exists.mp hin
  exact ⟨_, by rw [keywordFinding, hspan]; rfl, .keyword hreads hspan⟩

theorem identifierFinding_noted {v : Visit} {o : Option Finding}
    (hreads : v.node.isIdentifier = true) (hin : (w.toSource? v.node.span).isSome = true)
    (h : identifierFinding w v = .ok o) : ∃ s, o = some (.sighting s) ∧ v.Noted w s := by
  obtain ⟨span, hspan⟩ := Option.isSome_iff_exists.mp hin
  unfold identifierFinding at h
  rw [hspan] at h
  obtain ⟨name, hname, h⟩ := bind_eq_ok_iff.mp h
  obtain ⟨info, hinfo, h⟩ := bind_eq_ok_iff.mp h
  exact ⟨_, (pure_eq_ok_iff.mp h).symm, .identifier hreads hspan hname hinfo⟩

/-- A node with a token is noted. -/
theorem finding_noted {typeChecking : Bool} {v : Visit} {o : Option Finding}
    (h : finding w typeChecking v = .ok o) (hv : v.node.YieldsToken w) :
    ∃ s, o = some (.sighting s) ∧ v.Noted w s := by
  obtain ⟨d, hfault, _⟩ | ⟨_, h⟩ := finding_eq_ok_iff.mp h
  · rw [syntaxFault_eq_none_iff.mpr hv.sound] at hfault
    cases hfault
  · have htoken := hv.token
    unfold Node.isToken at htoken
    split at h
    · rename_i hnamed
      rw [if_pos hnamed, Bool.or_eq_true] at htoken
      unfold ruleFinding at h
      split at h
      · rename_i hkind
        exact identifierFinding_noted (by simp [Node.isIdentifier, hnamed, hkind]) hv.inside h
      · rename_i hkind
        have hreads : v.node.isIdentifier = false := by simp [Node.isIdentifier, hkind]
        rw [if_pos (htoken.resolve_left hkind)] at h
        rw [← Except.ok.inj h]
        exact keywordFinding_noted hreads hv.inside
    · rename_i hnamed
      rw [if_neg hnamed] at htoken
      rw [if_pos htoken, Except.ok.injEq] at h
      rw [← h]
      exact keywordFinding_noted (by simp [Node.isIdentifier, hnamed]) hv.inside

/-- A filter that maps, against the filter alone. -/
theorem forall₂_filter_filterMap {α β : Type} {p : α → Bool} {f : α → Option β}
    {R : α → β → Prop} {xs : List α}
    (h : ∀ x ∈ xs, (p x = false ∧ f x = none) ∨ (p x = true ∧ ∃ y, f x = some y ∧ R x y)) :
    List.Forall₂ R (xs.filter p) (xs.filterMap f) := by
  induction xs with
  | nil => exact .nil
  | cons x xs ih =>
    rw [List.forall_mem_cons] at h
    obtain ⟨⟨hp, hf⟩ | ⟨hp, y, hf, hr⟩, hxs⟩ := h
    · rw [List.filter_cons_of_neg (by simp [hp]), List.filterMap_cons_none hf]
      exact ih hxs
    · rw [List.filter_cons_of_pos hp, List.filterMap_cons_some hf]
      exact .cons hr (ih hxs)

/-- The sightings of a tree are those of its nodes with a token, one for each. -/
theorem findings_noted {typeChecking : Bool} {root : Node} {fs : List Finding}
    (h : findings w typeChecking root = .ok fs) :
    List.Forall₂ (Visit.Noted w) (root.tokenVisits w) (fs.filterMap Finding.sighting?) := by
  obtain ⟨hall, rfl⟩ := filterMapM_eq_ok_iff.mp h
  rw [List.filterMap_filterMap]
  refine forall₂_filter_filterMap fun v hv => ?_
  obtain ⟨o, ho⟩ := hall v hv
  simp only [ho, Except.toOption, Option.join_some]
  by_cases htoken : v.node.hasToken w = true
  · obtain ⟨s, rfl, hs⟩ := finding_noted ho (Node.hasToken_iff.mp htoken)
    exact .inr ⟨htoken, s, rfl, hs⟩
  · refine .inl ⟨by simpa using htoken, ?_⟩
    cases o with
    | none => rfl
    | some f =>
      cases f with
      | diagnostic d => rfl
      | sighting s => exact absurd (Node.hasToken_iff.mpr (yieldsToken_of_finding ho)) htoken

theorem forall₂_of_map_ok {α β ε : Type} {f : α → Except ε β} {xs : List α} {ys : List β}
    (h : xs.map f = ys.map Except.ok) : List.Forall₂ (fun x y => f x = .ok y) xs ys := by
  rw [← List.forall₂_eq_eq_eq, List.forall₂_map_left_iff, List.forall₂_map_right_iff] at h
  exact h

/-- The sightings of a walk go along with its nodes with a token, and its tokens with
the sightings. -/
theorem sightings_of_walk {r : Registry} {typeChecking : Bool} {root : Node} {found : WalkResult}
    (h : walk r w typeChecking root = .ok found) :
    ∃ sightings, List.Forall₂ (Visit.Noted w) (root.tokenVisits w) sightings ∧
      List.Forall₂ (fun s t => Sighting.token r (declarations sightings) w.source s = .ok t)
        sightings found.tokens := by
  obtain ⟨fs, hfs, htokens, _⟩ := walk_eq_ok_iff.mp h
  exact ⟨_, findings_noted hfs, forall₂_of_map_ok htokens⟩

/-- Three lists that go along with each other, without the one in the middle. -/
theorem forall₂_through {α β γ : Type} {R : α → β → Prop} {S : β → γ → Prop}
    {T : α → γ → Prop} {xs : List α} {ys : List β} {zs : List γ} (hxy : List.Forall₂ R xs ys)
    (hyz : List.Forall₂ S ys zs) (h : ∀ x y z, R x y → S y z → T x z) :
    List.Forall₂ T xs zs := by
  induction hxy generalizing zs with
  | nil =>
    cases hyz
    exact .nil
  | cons hr _ ih =>
    cases hyz with
    | cons hs hyz => exact .cons (h _ _ _ hr hs) (ih hyz)

theorem exists_of_mem_forall₂ {α β : Type} {R : α → β → Prop} {xs : List α} {ys : List β}
    (h : List.Forall₂ R xs ys) {y : β} (hy : y ∈ ys) : ∃ x ∈ xs, R x y := by
  induction h with
  | nil => cases hy
  | cons hr _ ih =>
    rcases List.mem_cons.mp hy with rfl | hy
    · exact ⟨_, List.mem_cons_self, hr⟩
    · exact (ih hy).imp fun x hx => ⟨List.mem_cons_of_mem _ hx.1, hx.2⟩

theorem Visit.Noted.lies {v : Visit} {s : Sighting} (h : v.Noted w s) :
    w.toSource? v.node.span = some s.span := by
  cases h with
  | identifier _ hspan _ _ => exact hspan
  | keyword _ hspan => exact hspan

theorem Visit.Noted.kind_eq {v : Visit} {s : Sighting} (h : v.Noted w s) :
    s.kind = if v.node.isIdentifier then .identifier else .keyword := by
  cases h with
  | identifier hreads _ _ _ => rw [if_pos hreads]
  | keyword hreads _ => rw [if_neg (by simp [hreads])]

/-- What a sighting selects from the source is the text of its node. -/
theorem Visit.Noted.text {v : Visit} {s : Sighting} {piece : List Char} (h : v.Noted w s)
    (hp : s.span.select? w.source = some piece) :
    v.node.text w.text = .ok (String.ofList piece) := by
  rw [Node.text, readSpan, Wrapped.cut_of_toSource? h.lies hp]
  rfl

end HoverTips.Tree
