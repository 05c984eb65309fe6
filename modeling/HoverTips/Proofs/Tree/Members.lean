import HoverTips.Proofs.Tree.Names

/-! # Names of members

A member is looked up through what it belongs to, so its name should mean nothing
to the uses around it. The walk keeps members from borrowing, but not from being
borrowed from: a use shows the first declaration of its name, be it a member's or
not (`uses_show_first`). -/

namespace HoverTips.Tree

variable {r : Registry} {w : Wrapped} {src : List Char} {vs : List Visit} {v : Visit}
  {name : String}

/-- The declarations of members: properties and methods. -/
def isMemberDeclaration : String → Bool
  | "public_field_definition" | "property_signature" | "method_definition" | "method_signature"
  | "abstract_method_signature" => true
  | _ => false

/-- The declarations of all other names: variables, parameters, functions and types. -/
def isPlainDeclaration : String → Bool
  | "variable_declarator" | "required_parameter" | "optional_parameter" | "arrow_function"
  | "function_declaration" | "generator_function_declaration" | "function_signature"
  | "interface_declaration" | "class_declaration" | "abstract_class_declaration" | "class"
  | "type_alias_declaration" => true
  | _ => false

/-- Whether a node stands in the declaration of a member. -/
def Visit.inMember (v : Visit) : Bool := v.parent?.any (isMemberDeclaration ·.kind)

/-- Whether a node stands in another declaration. -/
def Visit.inPlain (v : Visit) : Bool := v.parent?.any (isPlainDeclaration ·.kind)

theorem isPlainDeclaration_of_signature {kind : String}
    (h : (SignatureKind.ofNodeKind? kind).isSome = true) : isPlainDeclaration kind = true := by
  unfold SignatureKind.ofNodeKind? at h
  split at h
  iterate 5 rfl
  cases h

/-- A line is about a member or about another name. -/
theorem declaration_of_lineAbout {grandparent? : Option Node} {parent node : Node} {line : String}
    (h : lineAbout src grandparent? parent node name = .ok (some line)) :
    isMemberDeclaration parent.kind = true ∨ isPlainDeclaration parent.kind = true := by
  unfold lineAbout at h
  split at h
  iterate 4 exact .inr (by rw [‹parent.kind = _›]; rfl)
  iterate 2 exact .inl (by rw [‹parent.kind = _›]; rfl)
  iterate 3 exact .inr (by rw [‹parent.kind = _›]; rfl)
  iterate 3 exact .inl (by rw [‹parent.kind = _›]; rfl)
  cases h

/-- Every declaration is a member's or another one. -/
theorem Visit.Declares.inMember_or_inPlain {info : HoverInfo} (h : v.Declares src name info) :
    v.inMember = true ∨ v.inPlain = true := by
  obtain ⟨node, ancestors⟩ := v
  have hstates := h.states
  cases ancestors with
  | nil => cases hstates
  | cons parent outer =>
    simp only [Visit.inMember, Visit.inPlain, Visit.parent?, List.head?_cons, Option.any_some]
    simp only [declaredInfo] at hstates
    split at hstates
    · rename_i htype
      exact .inr (isPlainDeclaration_of_signature (Bool.and_eq_true_iff.mp htype).1)
    · obtain ⟨line?, hline, he⟩ := map_eq_ok_iff.mp hstates
      obtain ⟨line, rfl, _⟩ := Option.map_eq_some_iff.mp he
      exact declaration_of_lineAbout hline

/-! ## Uses -/

theorem FirstDeclares.mem {d : Visit} {info : HoverInfo} (h : FirstDeclares src vs name d info) :
    d ∈ vs ∧ d.Declares src name info := by
  obtain ⟨before, after, rfl, _, hd⟩ := h
  exact ⟨by simp, hd⟩

/-- A use: the name of a binding, in no declaration that says something about it. -/
structure Visit.IsUse (src : List Char) (v : Visit) : Prop where
  binds : v.isBinding = true
  silent : ∀ name info, ¬v.Declares src name info

/-- What a use shows: the first declaration of its name, or what the registry knows
about a name without declarations. -/
inductive UseShows (r : Registry) (src : List Char) (vs : List Visit) (name : String) :
    Option HoverInfo → Prop
  | known (alone : Undeclared src vs name) : UseShows r src vs name (r.hover name)
  | plain {d : Visit} {info : HoverInfo} (first : FirstDeclares src vs name d info)
      (origin : d.inPlain = true) : UseShows r src vs name (some info)
  | member {d : Visit} {info : HoverInfo} (first : FirstDeclares src vs name d info)
      (origin : d.inMember = true) : UseShows r src vs name (some info)

theorem Visit.IsUse.shows {info : Option HoverInfo} (hv : v.IsUse src)
    (h : Shows r src vs v name info) : UseShows r src vs name info := by
  have hreads : v.node.isIdentifier = true := (Bool.and_eq_true_iff.mp hv.binds).1
  cases h with
  | keyword hkeyword => exact absurd (hreads.symm.trans hkeyword) (by simp)
  | own hstates => exact absurd hstates (hv.silent _ _)
  | borrowed _ _ first =>
    rcases first.mem.2.inMember_or_inPlain with hmember | hplain
    · exact .member first hmember
    · exact .plain first hplain
  | known _ _ alone => exact .known (alone hv.binds)

/-- A use keeps to plain names: it shows a declaration that is no member's, or what
the registry knows. -/
def KeepsToPlain (r : Registry) (src : List Char) (vs : List Visit) (name : String)
    (shown : Option HoverInfo) : Prop :=
  (∃ d ∈ vs, d.inPlain = true ∧ ∃ info, d.Declares src name info ∧ shown = some info) ∨
    shown = r.hover name

theorem UseShows.keepsToPlain {shown : Option HoverInfo} (h : UseShows r src vs name shown)
    (hmembers : ∀ d ∈ vs, d.inMember = true → ∀ info, ¬d.Declares src name info) :
    KeepsToPlain r src vs name shown := by
  cases h with
  | known _ => exact .inr rfl
  | plain first origin => exact .inl ⟨_, first.mem.1, origin, _, first.mem.2, rfl⟩
  | member first origin => exact absurd first.mem.2 (hmembers _ first.mem.1 origin _)

/-- A use shows the first declaration of its name in the block: a plain one, or a
member's when that comes first. So where no member has the name, the use keeps to
plain names. -/
theorem uses_show_first {typeChecking : Bool} {root : Node} {found : WalkResult}
    (h : walk r w typeChecking root = .ok found) :
    let vs := root.tokenVisits w
    List.Forall₂ (fun v t => v.IsUse w.text →
        UseShows r w.text vs t.text t.info ∧
          ((∀ d ∈ vs, d.inMember = true → ∀ info, ¬d.Declares w.text t.text info) →
            KeepsToPlain r w.text vs t.text t.info))
      vs found.tokens := by
  intro vs
  obtain ⟨sightings, hnoted, htokens⟩ := sightings_of_walk h
  refine forall₂_through hnoted htokens fun v s t hs ht huse => ?_
  have hshows := huse.shows (hs.yields hnoted ht).shows
  exact ⟨hshows, hshows.keepsToPlain⟩

/-! ## A member that comes first -/

/-- The call in `interface P { fetch: string; } fetch(url)`. -/
def fetchCall : Node :=
  .mk ⟨"call_expression", true, false, false, ⟨40, 50⟩, []⟩
    [.mk ⟨"identifier", true, false, false, ⟨40, 45⟩, ["function"]⟩ [],
      .mk ⟨"arguments", true, false, false, ⟨45, 50⟩, ["arguments"]⟩
        [.mk ⟨"identifier", true, false, false, ⟨46, 49⟩, []⟩ []]]

/-- All of `interface P { fetch: string; } fetch(url)`. -/
def memberAndCall : Node :=
  .mk ⟨"program", true, false, false, ⟨0, 56⟩, []⟩
    [.mk ⟨"interface_declaration", true, false, false, ⟨9, 39⟩, []⟩
      [.mk ⟨"interface", false, false, false, ⟨9, 18⟩, []⟩ [],
        .mk ⟨"type_identifier", true, false, false, ⟨19, 20⟩, ["name"]⟩ [],
        .mk ⟨"interface_body", true, false, false, ⟨21, 39⟩, ["body"]⟩
          [.mk ⟨"property_signature", true, false, false, ⟨23, 36⟩, []⟩
            [.mk ⟨"property_identifier", true, false, false, ⟨23, 28⟩, ["name"]⟩ [],
              .mk ⟨"type_annotation", true, false, false, ⟨28, 36⟩, ["type"]⟩
                [.mk ⟨"predefined_type", true, false, false, ⟨30, 36⟩, []⟩ []]]]],
      fetchCall]

/-- The source of that tree, wrapped. -/
def memberAndCallText : Wrapped := .ofSource "interface P { fetch: string; } fetch(url)".toList

/-- The name of the called function. -/
def fetchVisit : Visit :=
  ⟨.mk ⟨"identifier", true, false, false, ⟨40, 45⟩, ["function"]⟩ [], [fetchCall, memberAndCall]⟩

/-- A registry with `fetch` alone. -/
def fetchRegistry : Registry := ⟨⟨[("fetch", ⟨"function", "", Palette.webApi.color⟩)]⟩, true⟩

/-- The tokens of that tree: the call has the line about the property. -/
def memberAndCallTokens : List Token :=
  [⟨⟨0, 9⟩, .keyword, "interface", none, none⟩,
    ⟨⟨10, 11⟩, .identifier, "P",
      some (.signature ⟨.interface, "P", [], ["fetch: string"], [], [], [], none⟩), none⟩,
    ⟨⟨14, 19⟩, .identifier, "fetch", some (.label "(property) fetch: string"), none⟩,
    ⟨⟨31, 36⟩, .identifier, "fetch", some (.label "(property) fetch: string"), none⟩,
    ⟨⟨37, 40⟩, .identifier, "url", none, none⟩]

/-- Both cases: the function that is called has the name of a member, and its argument
has no declaration. -/
theorem uses_show_first_both :
    let vs := memberAndCall.tokenVisits memberAndCallText
    walk fetchRegistry memberAndCallText true memberAndCall = .ok ⟨memberAndCallTokens, []⟩ ∧
      List.Forall₂ (fun v t => v.IsUse memberAndCallText.text →
          UseShows fetchRegistry memberAndCallText.text vs t.text t.info ∧
            ((∀ d ∈ vs, d.inMember = true →
                ∀ info, ¬d.Declares memberAndCallText.text t.text info) →
              KeepsToPlain fetchRegistry memberAndCallText.text vs t.text t.info))
        vs memberAndCallTokens := by
  have hwalk : walk fetchRegistry memberAndCallText true memberAndCall =
      .ok ⟨memberAndCallTokens, []⟩ := by rfl
  exact ⟨hwalk, uses_show_first hwalk⟩

/-- The called function is in no declaration, and the registry knows it, but what it
shows is the line about the property. -/
theorem uses_show_first_member :
    let vs := memberAndCall.tokenVisits memberAndCallText
    ∃ found t, walk fetchRegistry memberAndCallText true memberAndCall = .ok found ∧
      (fetchVisit, t) ∈ vs.zip found.tokens ∧ fetchVisit.IsUse memberAndCallText.text ∧
      t.text = "fetch" ∧ t.info = some (.label "(property) fetch: string") ∧
      ¬KeepsToPlain fetchRegistry memberAndCallText.text vs t.text t.info := by
  intro vs
  have hcall : (vs.zip memberAndCallTokens)[3]? = some (fetchVisit,
      ⟨⟨31, 36⟩, .identifier, "fetch", some (.label "(property) fetch: string"), none⟩) := by rfl
  refine ⟨_, _, (by rfl : _ = Except.ok ⟨memberAndCallTokens, []⟩),
    List.mem_of_getElem? hcall, ⟨by rfl, fun name info hd => ?_⟩, rfl, rfl, ?_⟩
  · have hname : fetchVisit.node.text memberAndCallText.text = .ok "fetch" := by rfl
    have hsilent : declaredInfo memberAndCallText.text fetchVisit "fetch" = .ok none := by rfl
    obtain rfl := Except.ok.inj (hname.symm.trans hd.named)
    cases hsilent.symm.trans hd.states
  · rintro (⟨d, hd, horigin, info, hdeclares, _⟩ | hregistry)
    · have hplain : ∀ d ∈ vs, d.inPlain = true →
          d.node.text memberAndCallText.text ≠ .ok "fetch" := by decide +kernel
      exact hplain d hd horigin hdeclares.named
    · cases hregistry

end HoverTips.Tree
