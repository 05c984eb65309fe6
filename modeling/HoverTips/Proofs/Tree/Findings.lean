import HoverTips.Proofs.Block.Window
import HoverTips.Proofs.Tree.Declared
import HoverTips.Proofs.Tree.Walk

/-! # Walks that finish

The checks of initializers and the faults that nodes mark can be read off every
tree that lies in its text, like what names declare. A walk over such a tree
therefore finishes (`walk_succeeds`): every sighting lies in the source between
characters, so it has a token. -/

namespace HoverTips.Tree

variable {src : List Char}

/-! ## Initializers -/

mutual

theorem literalOf_succeeds : ∀ {n : Node}, n.Fits src → Succeeds (literalOf src n)
  | .mk l cs, h => by
    rw [literalOf]
    exact (Node.text_succeeds h).bind fun _ =>
      succeeds_ite (firstLiteral_succeeds h.2) (succeeds_pure _)

theorem firstLiteral_succeeds : ∀ {cs : List Node}, allNodes (Label.Fits src) cs →
    Succeeds (firstLiteral src cs)
  | [], _ => succeeds_ok none
  | c :: cs, h => by
    rw [firstLiteral]
    exact succeeds_ite (literalOf_succeeds h.1) (firstLiteral_succeeds h.2)

end

theorem literalOfType_succeeds {cs : List Node} (h : ∀ c ∈ cs, c.Fits src) :
    Succeeds (literalOfType src cs) := by
  unfold literalOfType
  split
  · rename_i inner hinner
    have hfits := h inner (firstNamed?_mem hinner)
    exact succeeds_ite (Node.text_succeeds hfits).map (literalOf_succeeds hfits)
  · exact succeeds_ok none

mutual

theorem Node.verdict_succeeds {literal : Literal} : ∀ {n : Node}, n.Fits src →
    Succeeds (n.verdict src literal)
  | .mk l cs, h => by
    rw [Node.verdict]
    split
    · exact (Node.text_succeeds h).map
    · exact (literalOfType_succeeds h.children).map
    · exact unionVerdict_succeeds h.2
    · exact firstVerdict_succeeds h.2
    · exact succeeds_ok _

theorem firstVerdict_succeeds {literal : Literal} : ∀ {cs : List Node},
    allNodes (Label.Fits src) cs → Succeeds (firstVerdict src literal cs)
  | [], _ => succeeds_ok _
  | c :: cs, h => by
    rw [firstVerdict]
    exact succeeds_ite (Node.verdict_succeeds h.1) (firstVerdict_succeeds h.2)

theorem unionVerdict_succeeds {literal : Literal} {literalTarget unknown : Bool} :
    ∀ {cs : List Node}, allNodes (Label.Fits src) cs →
      Succeeds (unionVerdict src literal literalTarget unknown cs)
  | [], _ => succeeds_ok _
  | c :: cs, h => by
    rw [unionVerdict]
    refine succeeds_ite ((Node.verdict_succeeds h.1).bind fun verdict => ?_)
      (unionVerdict_succeeds h.2)
    cases verdict with
    | accepts => exact succeeds_pure _
    | refuses isLiteral => exact unionVerdict_succeeds h.2
    | unknown => exact unionVerdict_succeeds h.2

end

theorem assignable_succeeds {type : Node} {literal : Literal} (h : type.Fits src) :
    Succeeds (assignable src type literal) :=
  succeeds_ite (succeeds_ok _) (Node.verdict_succeeds h)

mutual

theorem Node.shownType_succeeds : ∀ {n : Node}, n.Fits src → Succeeds (n.shownType src)
  | .mk l cs, h => by
    have htext := Node.compactText_succeeds h
    rw [Node.shownType]
    split
    · refine (literalOfType_succeeds h.children).bind fun literal => ?_
      cases literal with
      | some literal => exact succeeds_pure _
      | none => exact htext
    · exact (shownMembers_succeeds h.2).bind fun _ => succeeds_pure _
    · cases hfirst : shownFirst src cs with
      | some inner => exact (shownFirst_succeeds h.2 inner hfirst).map
      | none => exact htext
    · exact htext

theorem shownMembers_succeeds : ∀ {cs : List Node}, allNodes (Label.Fits src) cs →
    Succeeds (shownMembers src cs)
  | [], _ => succeeds_ok []
  | c :: cs, h => by
    rw [shownMembers]
    exact succeeds_ite
      ((Node.shownType_succeeds h.1).bind fun _ => (shownMembers_succeeds h.2).bind fun _ =>
        succeeds_pure _)
      (shownMembers_succeeds h.2)

theorem shownFirst_succeeds : ∀ {cs : List Node}, allNodes (Label.Fits src) cs →
    ∀ x ∈ shownFirst src cs, Succeeds x
  | [], _ => by simp [shownFirst]
  | c :: cs, h => by
    rw [shownFirst]
    split
    · rintro x ⟨⟩
      exact Node.shownType_succeeds h.1
    · exact shownFirst_succeeds h.2

end

theorem initializerDiagnostic_succeeds {declared value : Node} {literal : Literal}
    {literalTarget : Bool} (h : declared.Fits src) :
    Succeeds (initializerDiagnostic src declared value literal literalTarget) :=
  (Node.shownType_succeeds h).bind fun _ => succeeds_pure _

theorem checkInitializer_succeeds {cs : List Node} (h : ∀ c ∈ cs, c.Fits src) :
    Succeeds (checkInitializer src cs) := by
  unfold checkInitializer
  split
  · rename_i note value hnote hvalue
    split
    · exact succeeds_ok none
    · rename_i declared hdeclared
      have hfits := (h note (field?_mem hnote)).children declared (firstNamed?_mem hdeclared)
      refine (literalOf_succeeds (h value (field?_mem hvalue))).bind fun literal => ?_
      cases literal with
      | none => exact succeeds_pure none
      | some literal =>
        refine (assignable_succeeds hfits).bind fun verdict => ?_
        cases verdict with
        | refuses literalTarget => exact (initializerDiagnostic_succeeds hfits).map
        | accepts => exact succeeds_pure none
        | unknown => exact succeeds_pure none
  · exact succeeds_ok none

/-! ## Faults -/

theorem syntaxFault_succeeds {window : Span} {n : Node} (h : n.label.Fits src)
    (hs : Text.isBoundary src window.start = true) (he : Text.isBoundary src window.stop = true) :
    Succeeds (syntaxFault src window n) := by
  refine succeeds_ite (succeeds_ok _) (succeeds_ite ?_ (succeeds_ok none))
  split
  · exact succeeds_ok none
  · rename_i shared hshared
    obtain ⟨hlt, rfl⟩ := Span.meet?_eq_some_iff.mp hshared
    exact (readSpan_succeeds (Nat.le_of_lt hlt) (Text.isBoundary_max h.starts hs)
      (Text.isBoundary_min h.stops he)).bind fun _ => succeeds_pure _

/-! ## The walk -/

theorem identifierFinding_succeeds {w : Wrapped} {v : Visit} (h : v.node.Fits w.text)
    (ha : ∀ a ∈ v.ancestors, a.Fits w.text) : Succeeds (identifierFinding w v) := by
  unfold identifierFinding
  split
  · exact succeeds_ok none
  · exact (Node.text_succeeds h).bind fun _ => (declaredInfo_succeeds ha).bind fun _ =>
      succeeds_pure _

theorem ruleFinding_succeeds {w : Wrapped} {typeChecking : Bool} {v : Visit}
    (h : v.node.Fits w.text) (ha : ∀ a ∈ v.ancestors, a.Fits w.text) :
    Succeeds (ruleFinding w typeChecking v) :=
  succeeds_ite (identifierFinding_succeeds h ha) (succeeds_ite (succeeds_ok _)
    (succeeds_ite (checkInitializer_succeeds h.children).map (succeeds_ok none)))

theorem finding_succeeds {w : Wrapped} {typeChecking : Bool} {v : Visit}
    (h : v.node.Fits w.text) (ha : ∀ a ∈ v.ancestors, a.Fits w.text) :
    Succeeds (finding w typeChecking v) := by
  refine (syntaxFault_succeeds h.label Wrapped.isBoundary_window_start
    Wrapped.isBoundary_window_stop).bind fun fault => ?_
  cases fault with
  | some fault => exact succeeds_pure _
  | none =>
    exact succeeds_ite (ruleFinding_succeeds h ha) (succeeds_ite (succeeds_pure _) (succeeds_pure _))

/-- A fault is all that a node gives rise to; other nodes are read by their kind. -/
theorem finding_eq_ok_iff {w : Wrapped} {typeChecking : Bool} {v : Visit} {o : Option Finding} :
    finding w typeChecking v = .ok o ↔
      (∃ d, syntaxFault w.text w.window v.node = .ok (some d) ∧ some (.diagnostic d) = o) ∨
        syntaxFault w.text w.window v.node = .ok none ∧
          (if v.node.isNamed then ruleFinding w typeChecking v
            else if isKeyword v.node.kind then .ok (keywordFinding w v.node) else .ok none) =
              .ok o := by
  unfold finding
  rw [bind_eq_ok_iff]
  constructor
  · rintro ⟨_ | d, hfault, h⟩
    · exact .inr ⟨hfault, h⟩
    · exact .inl ⟨d, hfault, pure_eq_ok_iff.mp h⟩
  · rintro (⟨d, hfault, h⟩ | ⟨hfault, h⟩)
    · exact ⟨some d, hfault, pure_eq_ok_iff.mpr h⟩
    · exact ⟨none, hfault, h⟩

/-- Whether a node reads as an identifier or a keyword. -/
def Node.isToken (n : Node) : Bool :=
  if n.isNamed then isIdentifierKind n.kind || isKeywordLiteral n.kind else isKeyword n.kind

theorem keywordFinding_sighting {w : Wrapped} {n : Node} {s : Sighting}
    (h : keywordFinding w n = some (.sighting s)) : w.toSource? n.span = some s.span := by
  obtain ⟨span, hspan, he⟩ := Option.map_eq_some_iff.mp h
  cases he
  exact hspan

theorem identifierFinding_sighting {w : Wrapped} {v : Visit} {s : Sighting}
    (h : identifierFinding w v = .ok (some (.sighting s))) :
    w.toSource? v.node.span = some s.span := by
  unfold identifierFinding at h
  split at h
  · cases h
  · rename_i span hspan
    obtain ⟨name, _, h⟩ := bind_eq_ok_iff.mp h
    obtain ⟨info, _, h⟩ := bind_eq_ok_iff.mp h
    cases pure_eq_ok_iff.mp h
    exact hspan

theorem ruleFinding_sighting {w : Wrapped} {typeChecking : Bool} {v : Visit} {s : Sighting}
    (h : ruleFinding w typeChecking v = .ok (some (.sighting s))) :
    (isIdentifierKind v.node.kind || isKeywordLiteral v.node.kind) = true ∧
      w.toSource? v.node.span = some s.span := by
  unfold ruleFinding at h
  split at h
  · rename_i hkind
    exact ⟨by simp [hkind], identifierFinding_sighting h⟩
  · split at h
    · rename_i hkind
      exact ⟨by simp [hkind], keywordFinding_sighting (Except.ok.inj h)⟩
    · split at h
      · obtain ⟨d, _, hd⟩ := map_eq_ok_iff.mp h
        cases d <;> cases hd
      · cases h

/-- A sighting stands for a token of the text that marks no fault, where it lies
in the source. -/
theorem finding_sighting {w : Wrapped} {typeChecking : Bool} {v : Visit} {s : Sighting}
    (h : finding w typeChecking v = .ok (some (.sighting s))) :
    syntaxFault w.text w.window v.node = .ok none ∧ v.node.isToken = true ∧
      w.toSource? v.node.span = some s.span := by
  obtain ⟨d, _, hd⟩ | ⟨hfault, h⟩ := finding_eq_ok_iff.mp h
  · cases hd
  · refine ⟨hfault, ?_⟩
    unfold Node.isToken
    split at h
    · rename_i hnamed
      rw [if_pos hnamed]
      exact ruleFinding_sighting h
    · rename_i hnamed
      rw [if_neg hnamed]
      split at h
      · rename_i hkind
        exact ⟨hkind, keywordFinding_sighting (Except.ok.inj h)⟩
      · cases h

theorem findings_succeeds {w : Wrapped} {typeChecking : Bool} {root : Node}
    (h : root.Fits w.text) : Succeeds (findings w typeChecking root) :=
  succeeds_filterMapM fun v hv =>
    have hfits := h.visits (by simp) v hv
    finding_succeeds hfits.1 hfits.2

/-- What is found is what the visited nodes give rise to. -/
theorem mem_findings_iff {w : Wrapped} {typeChecking : Bool} {root : Node} {fs : List Finding}
    (h : findings w typeChecking root = .ok fs) {f : Finding} :
    f ∈ fs ↔ ∃ v ∈ root.visits [], finding w typeChecking v = .ok (some f) := by
  obtain ⟨hall, rfl⟩ := filterMapM_eq_ok_iff.mp h
  rw [List.mem_filterMap]
  refine exists_congr fun v => and_congr_right fun hv => ?_
  obtain ⟨o, ho⟩ := hall v hv
  simp [ho, Except.toOption]

/-- A walk over a tree that lies in its text finishes. -/
theorem walk_succeeds (r : Registry) {w : Wrapped} (typeChecking : Bool) {root : Node}
    (h : root.Fits w.text) : Succeeds (walk r w typeChecking root) := by
  obtain ⟨fs, hfs⟩ : Succeeds (findings w typeChecking root) := findings_succeeds h
  unfold walk
  rw [hfs]
  refine (succeeds_mapM fun s hs => ?_).bind fun _ => succeeds_pure _
  obtain ⟨f, hf, he⟩ := List.mem_filterMap.mp hs
  obtain ⟨v, hv, hfind⟩ := (mem_findings_iff hfs).mp hf
  cases f with
  | diagnostic d => cases he
  | sighting t =>
    obtain rfl : t = s := Option.some.inj he
    have hfits := (h.visits (by simp) v hv).1.label
    obtain ⟨piece, hpiece⟩ :=
      Wrapped.select?_toSource? (finding_sighting hfind).2.2 hfits.starts hfits.stops
    exact ⟨_, Sighting.token_eq_ok_iff.mpr ⟨piece, hpiece, rfl⟩⟩

end HoverTips.Tree
