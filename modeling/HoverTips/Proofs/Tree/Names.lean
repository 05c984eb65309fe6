import HoverTips.Proofs.Tree.Listing

/-! # What names show

A name shows what the declaration says that it names. A use names none; if it is
the name of a binding, it shows what the first declaration of its name says,
wherever in the block that stands, and else what the registry knows
(`walk_tokens_yielded`). The first declaration need not be one that the use could
mean: members are looked up with all other names, so the line about a property
can end up at a call of a function. -/

namespace HoverTips.Tree

variable {r : Registry} {w : Wrapped} {src : List Char} {vs : List Visit} {v : Visit}
  {name : String} {info : HoverInfo}

/-! ## Declarations of a name -/

/-- The node stands for a name in a declaration that says something about it. -/
structure Visit.Declares (src : List Char) (v : Visit) (name : String) (info : HoverInfo) :
    Prop where
  reads : v.node.isIdentifier = true
  named : v.node.text src = .ok name
  states : declaredInfo src v name = .ok (some info)

/-- No declaration among the nodes says anything about a name. -/
def Undeclared (src : List Char) (vs : List Visit) (name : String) : Prop :=
  ∀ v ∈ vs, ∀ info, ¬v.Declares src name info

/-- A node among others is the first to declare a name. -/
def FirstDeclares (src : List Char) (vs : List Visit) (name : String) (d : Visit)
    (info : HoverInfo) : Prop :=
  ∃ before after, vs = before ++ d :: after ∧ Undeclared src before name ∧
    d.Declares src name info

theorem undeclared_nil : Undeclared src [] name := fun _ h => by cases h

theorem Undeclared.cons (hv : ∀ info, ¬v.Declares src name info) (h : Undeclared src vs name) :
    Undeclared src (v :: vs) name :=
  List.forall_mem_cons.mpr ⟨hv, h⟩

theorem FirstDeclares.cons {d : Visit} (hv : ∀ info, ¬v.Declares src name info)
    (h : FirstDeclares src vs name d info) : FirstDeclares src (v :: vs) name d info := by
  obtain ⟨before, after, rfl, hbefore, hd⟩ := h
  exact ⟨v :: before, after, rfl, hbefore.cons hv, hd⟩

theorem Visit.Declares.first (h : v.Declares src name info) :
    FirstDeclares src (v :: vs) name v info :=
  ⟨[], vs, rfl, undeclared_nil, h⟩

/-- What is noted about a node says what it declares. -/
theorem Visit.Noted.declares_iff {s : Sighting} (h : v.Noted w s) :
    v.Declares w.text name info ↔ s.declared = some (name, info) := by
  cases h with
  | keyword hreads _ =>
    constructor
    · intro hd
      rw [hd.reads] at hreads
      cases hreads
    · intro hd
      cases hd
  | @identifier span name' info' hreads _ hname hinfo =>
    constructor
    · intro hd
      obtain rfl := Except.ok.inj (hname.symm.trans hd.named)
      obtain rfl := Except.ok.inj (hinfo.symm.trans hd.states)
      rfl
    · intro hd
      obtain ⟨i, rfl, he⟩ := Option.map_eq_some_iff.mp hd
      cases he
      exact ⟨hreads, hname, hinfo⟩

/-- The declarations that a walk notes are looked up by the first of each name. -/
theorem lookup_declarations {ss : List Sighting} (h : List.Forall₂ (Visit.Noted w) vs ss)
    (name : String) :
    ((declarations ss).lookup name = none ∧ Undeclared w.text vs name) ∨
      ∃ d info, (declarations ss).lookup name = some info ∧
        FirstDeclares w.text vs name d info := by
  induction h with
  | nil => exact .inl ⟨rfl, undeclared_nil⟩
  | @cons v s vs ss hs _ ih =>
    by_cases hv : ∃ info, v.Declares w.text name info
    · obtain ⟨info, hv⟩ := hv
      refine .inr ⟨v, info, ?_, hv.first⟩
      rw [declarations, List.filterMap_cons_some (hs.declares_iff.mp hv)]
      exact List.lookup_cons_self
    · have hv : ∀ info, ¬v.Declares w.text name info := fun info hd => hv ⟨info, hd⟩
      -- what the node declares, if anything, has another name
      have hskip : (declarations (s :: ss)).lookup name = (declarations ss).lookup name := by
        cases hdeclared : s.declared with
        | none => rw [declarations, List.filterMap_cons_none hdeclared, declarations]
        | some pair =>
          obtain ⟨other, info⟩ := pair
          have hne : name ≠ other := by
            rintro rfl
            exact hv info (hs.declares_iff.mpr hdeclared)
          rw [declarations, List.filterMap_cons_some hdeclared, List.lookup_cons,
            beq_false_of_ne hne, declarations]
      rw [hskip]
      obtain ⟨hnone, hundeclared⟩ | ⟨d, info, hsome, hfirst⟩ := ih
      · exact .inl ⟨hnone, hundeclared.cons hv⟩
      · exact .inr ⟨d, info, hsome, hfirst.cons hv⟩

/-! ## Hover content -/

/-- Whether a node is the name of a binding. -/
def Visit.isBinding (v : Visit) : Bool := v.node.isIdentifier && isBindingKind v.node.kind

/-- The hover content of a node with a token, among all such nodes of its block. -/
inductive Shows (r : Registry) (src : List Char) (vs : List Visit) (v : Visit) (name : String) :
    Option HoverInfo → Prop
  /-- A keyword shows what the registry knows. -/
  | keyword (reads : v.node.isIdentifier = false) : Shows r src vs v name (r.hover name)
  /-- A name in a declaration shows what that says. -/
  | own {info : HoverInfo} (states : v.Declares src name info) : Shows r src vs v name (some info)
  /-- Any other name of a binding shows what the first declaration of the name says. -/
  | borrowed {d : Visit} {info : HoverInfo} (silent : ∀ info, ¬v.Declares src name info)
      (binds : v.isBinding = true) (first : FirstDeclares src vs name d info) :
      Shows r src vs v name (some info)
  /-- All other names show what the registry knows. -/
  | known (reads : v.node.isIdentifier = true) (silent : ∀ info, ¬v.Declares src name info)
      (alone : v.isBinding = true → Undeclared src vs name) : Shows r src vs v name (r.hover name)

theorem Visit.Noted.shows {s : Sighting} {ss : List Sighting} (hs : v.Noted w s)
    (h : List.Forall₂ (Visit.Noted w) vs ss) (hname : v.node.text w.text = .ok name) :
    Shows r w.text vs v name (s.info r (declarations ss) name) := by
  have hdeclares : ∀ info, v.Declares w.text name info ↔ s.declared = some (name, info) :=
    fun info => hs.declares_iff
  cases hs with
  | keyword hreads _ => exact .keyword hreads
  | @identifier span name' info hreads _ hname' hinfo =>
    obtain rfl := Except.ok.inj (hname.symm.trans hname')
    cases info with
    | some info => exact .own ((hdeclares info).mpr rfl)
    | none =>
      have hsilent : ∀ info, ¬v.Declares w.text name info := fun info hd => by
        cases (hdeclares info).mp hd
      have hbinding : v.isBinding = isBindingKind v.node.kind := by
        rw [Visit.isBinding, hreads, Bool.true_and]
      by_cases hbinds : isBindingKind v.node.kind = true
      · simp only [Sighting.info, Option.map_none, Option.none_or, if_pos hbinds]
        obtain ⟨hnone, hundeclared⟩ | ⟨d, info, hsome, hfirst⟩ := lookup_declarations h name
        · rw [hnone, Option.none_or]
          exact .known hreads hsilent fun _ => hundeclared
        · rw [hsome, Option.some_or]
          exact .borrowed hsilent (hbinding.trans hbinds) hfirst
      · simp only [Sighting.info, Option.map_none, Option.none_or, if_neg hbinds]
        exact .known hreads hsilent fun hb => absurd (hbinding.symm.trans hb) hbinds

/-- A token is the one of a visited node, among all nodes with a token. -/
structure Visit.Yields (r : Registry) (w : Wrapped) (vs : List Visit) (v : Visit) (t : Token) :
    Prop where
  lies : w.toSource? v.node.span = some t.span
  reads : v.node.text w.text = .ok t.text
  kind : t.kind = if v.node.isIdentifier then .identifier else .keyword
  message : t.message = none
  shows : Shows r w.text vs v t.text t.info

theorem Visit.Noted.yields {s : Sighting} {ss : List Sighting} {t : Token} (hs : v.Noted w s)
    (h : List.Forall₂ (Visit.Noted w) vs ss)
    (ht : s.token r (declarations ss) w.source = .ok t) : v.Yields r w vs t := by
  obtain ⟨piece, hpiece, rfl⟩ := Sighting.token_eq_ok_iff.mp ht
  have hname := hs.text hpiece
  exact ⟨hs.lies, hname, hs.kind_eq, rfl, hs.shows h hname⟩

/-- A walk that finishes has one token for each node that reads as an identifier or
a keyword, stands for no missing text and for none out of place, and lies in the
source, in pre-order, and no other token. What a token shows is decided by the
declarations that these nodes name and by the registry. -/
theorem walk_tokens_yielded {typeChecking : Bool} {root : Node} {found : WalkResult}
    (h : walk r w typeChecking root = .ok found) :
    List.Forall₂ (Visit.Yields r w (root.tokenVisits w)) (root.tokenVisits w) found.tokens := by
  obtain ⟨sightings, hnoted, htokens⟩ := sightings_of_walk h
  exact forall₂_through hnoted htokens fun v s t hs ht => hs.yields hnoted ht

/-- The tree of `é.é;let é=1`, with an identifier behind it that reaches into the
wrapper. -/
def useBeforeDeclaration : Node :=
  .mk ⟨"program", true, false, false, ⟨0, 29⟩, []⟩
    [.mk ⟨"member_expression", true, false, false, ⟨9, 14⟩, []⟩
      [.mk ⟨"identifier", true, false, false, ⟨9, 11⟩, ["object"]⟩ [],
        .mk ⟨".", false, false, false, ⟨11, 12⟩, []⟩ [],
        .mk ⟨"property_identifier", true, false, false, ⟨12, 14⟩, ["property"]⟩ []],
      .mk ⟨"lexical_declaration", true, false, false, ⟨15, 23⟩, []⟩
        [.mk ⟨"let", false, false, false, ⟨15, 18⟩, ["kind"]⟩ [],
          .mk ⟨"variable_declarator", true, false, false, ⟨19, 23⟩, []⟩
            [.mk ⟨"identifier", true, false, false, ⟨19, 21⟩, ["name"]⟩ [],
              .mk ⟨"number", true, false, false, ⟨22, 23⟩, ["value"]⟩ []]],
      .mk ⟨"identifier", true, false, false, ⟨22, 27⟩, []⟩ []]

/-- The use is before the declaration that it borrows from; a member does not borrow. -/
theorem walk_tokens_yielded_forward :
    let keyword : Definition := ⟨"keyword", "", Palette.keyword.color⟩
    let w := Wrapped.ofSource "é.é;let é=1".toList
    let tokens : List Token :=
      [⟨⟨0, 2⟩, .identifier, "é", some (.label "(let variable) é: number"), none⟩,
        ⟨⟨3, 5⟩, .identifier, "é", none, none⟩,
        ⟨⟨6, 9⟩, .keyword, "let", some (.definition keyword), none⟩,
        ⟨⟨10, 12⟩, .identifier, "é", some (.label "(let variable) é: number"), none⟩]
    walk ⟨⟨[("let", keyword)]⟩, true⟩ w true useBeforeDeclaration = .ok ⟨tokens, []⟩ ∧
      List.Forall₂
        (Visit.Yields ⟨⟨[("let", keyword)]⟩, true⟩ w (useBeforeDeclaration.tokenVisits w))
        (useBeforeDeclaration.tokenVisits w) tokens := by
  intro keyword w tokens
  have hwalk : walk ⟨⟨[("let", keyword)]⟩, true⟩ w true useBeforeDeclaration = .ok ⟨tokens, []⟩ := by rfl
  exact ⟨hwalk, walk_tokens_yielded hwalk⟩

end HoverTips.Tree
