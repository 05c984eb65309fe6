import HoverTips.Tree.Declaration
import HoverTips.Proofs.Tree.Readable

/-! # Declarations that can be read

The outlines of types and the lines about names have a value on every tree that
lies in its text, whatever the tree looks like: a declaration without the parts
that are read has less to say, but it does not stop the walk. -/

namespace HoverTips.Tree

variable {src : List Char} {cs : List Node}

/-! ## Outlines of types -/

theorem named_fits (h : ∀ c ∈ cs, c.Fits src) : ∀ c ∈ named cs, c.Fits src :=
  fun c hc => h c (mem_of_mem_named hc)

theorem heritageTypes_succeeds {clause : Node} (h : clause.Fits src) :
    Succeeds (heritageTypes src clause) := by
  refine succeeds_foldlM [] fun types child hchild => ?_
  refine (Node.compactText_succeeds (named_fits h.children child hchild)).bind fun text => ?_
  split <;> exact succeeds_pure _

theorem modifierText_succeeds (h : ∀ c ∈ cs, c.Fits src) : Succeeds (modifierText src cs) :=
  (modifiers_succeeds h).map

theorem nameText_succeeds (h : ∀ c ∈ cs, c.Fits src) : Succeeds (nameText src cs) := by
  unfold nameText
  split
  · rename_i name hname
    exact Node.text_succeeds (h name (field?_mem hname))
  · exact succeeds_ok ""

theorem propertyMember_succeeds {member : Node} (h : member.Fits src) :
    Succeeds (propertyMember src member) :=
  (modifierText_succeeds h.children).bind fun _ => (nameText_succeeds h.children).bind fun _ =>
    (declaredType_succeeds h.children).bind fun _ => succeeds_pure _

theorem methodMember_succeeds {member : Node} (h : member.Fits src) :
    Succeeds (methodMember src member) :=
  (modifierText_succeeds h.children).bind fun _ => (nameText_succeeds h.children).bind fun _ =>
    (callableTail_succeeds h.children).bind fun _ => succeeds_pure _

theorem plainMember_succeeds {member : Node} (h : member.Fits src) :
    Succeeds (plainMember src member) :=
  (Node.text_succeeds h).bind fun _ => succeeds_pure _

theorem interfaceMember_succeeds {member : Node} (h : member.Fits src) :
    Succeeds (interfaceMember src member) := by
  unfold interfaceMember
  split
  · exact (propertyMember_succeeds h).map
  · exact (methodMember_succeeds h).map
  · exact succeeds_ok none
  · exact (plainMember_succeeds h).map

theorem classMember_succeeds {member : Node} (h : member.Fits src) :
    Succeeds (classMember src member) := by
  unfold classMember
  split
  · exact (propertyMember_succeeds h).map
  iterate 3 exact (methodMember_succeeds h).map
  · exact (plainMember_succeeds h).map
  · exact succeeds_ok none

theorem bodyMembers_succeeds {read : Node → Reading (Option String)}
    (hread : ∀ {member : Node}, member.Fits src → Succeeds (read member))
    (h : ∀ c ∈ cs, c.Fits src) : Succeeds (bodyMembers read cs) := by
  unfold bodyMembers
  split
  · rename_i body hbody
    exact succeeds_filterMapM fun member hm =>
      hread (named_fits (h body (field?_mem hbody)).children member hm)
  · exact succeeds_ok []

theorem typeParameters_succeeds (h : ∀ c ∈ cs, c.Fits src) :
    Succeeds (typeParameters src cs) := by
  unfold typeParameters
  split
  · rename_i list hlist
    exact succeeds_mapM fun parameter hp => Node.compactText_succeeds
      (named_fits (h list (field?_mem hlist)).children parameter (List.mem_filter.mp hp).1)
  · exact succeeds_ok []

theorem clauseTypes_succeeds {kind : String} (h : ∀ c ∈ cs, c.Fits src) :
    Succeeds (clauseTypes src kind cs) :=
  (succeeds_mapM fun clause hc =>
    heritageTypes_succeeds (h clause (List.mem_filter.mp hc).1)).map

theorem heritageClauses_fits (h : ∀ c ∈ cs, c.Fits src) :
    ∀ c ∈ heritageClauses cs, c.Fits src := by
  intro clause hclause
  obtain ⟨heritage, hh, hc⟩ := List.mem_flatMap.mp hclause
  exact named_fits (h heritage (List.mem_filter.mp hh).1).children clause hc

theorem signatureOf_succeeds {parent? : Option Node} {declaration : Node}
    (h : declaration.Fits src) : Succeeds (signatureOf src parent? declaration) := by
  have hcs := h.children
  unfold signatureOf
  split
  · rename_i kind name _ hname
    refine (Node.text_succeeds (hcs name (field?_mem hname))).bind fun nameText => ?_
    refine (typeParameters_succeeds hcs).bind fun types => ?_
    cases kind with
    | interface =>
      exact (clauseTypes_succeeds hcs).bind fun _ =>
        (bodyMembers_succeeds interfaceMember_succeeds hcs).bind fun _ => succeeds_pure _
    | classType =>
      have hclauses := heritageClauses_fits hcs
      exact (clauseTypes_succeeds hclauses).bind fun _ => (clauseTypes_succeeds hclauses).bind
        fun _ => (bodyMembers_succeeds classMember_succeeds hcs).bind fun _ => succeeds_pure _
    | typeAlias =>
      dsimp only
      split
      · rename_i value hvalue
        exact (Node.compactText_succeeds (hcs value (field?_mem hvalue))).bind fun _ =>
          succeeds_pure _
      · exact succeeds_pure _
  · exact succeeds_ok none

/-! ## Lines about names -/

theorem variableLabel_succeeds {declaration? : Option Node} {declarator : Node} {name : String}
    (h : declarator.Fits src) : Succeeds (variableLabel src declaration? declarator name) :=
  (declaredType_succeeds h.children).bind fun _ => succeeds_pure _

theorem parameterLabel_succeeds {parameter : Node} {name : String} (h : parameter.Fits src) :
    Succeeds (parameterLabel src parameter name) := by
  unfold parameterLabel
  refine (declaredType_succeeds h.children).bind fun type => ?_
  cases hvalue : field? "value" parameter.children with
  | some value =>
    exact (Node.compactText_succeeds (h.children value (field?_mem hvalue))).map.bind fun _ =>
      succeeds_pure _
  | none => exact succeeds_pure _

theorem propertyLabel_succeeds {member : Node} {name : String} (h : member.Fits src) :
    Succeeds (propertyLabel src member name) :=
  (modifierText_succeeds h.children).bind fun _ => (declaredType_succeeds h.children).bind fun _ =>
    succeeds_pure _

theorem functionLabel_succeeds {declaration : Node} {name : String} (h : declaration.Fits src) :
    Succeeds (functionLabel src declaration name) :=
  (callableTail_succeeds h.children).map

theorem methodLabel_succeeds {member : Node} {name : String} (h : member.Fits src) :
    Succeeds (methodLabel src member name) :=
  (callableTail_succeeds h.children).map

theorem lineAbout_succeeds {grandparent? : Option Node} {parent node : Node} {name : String}
    (h : parent.Fits src) : Succeeds (lineAbout src grandparent? parent node name) := by
  unfold lineAbout
  split
  · exact succeeds_ite (variableLabel_succeeds h).map (succeeds_ok none)
  iterate 2 exact succeeds_ite (parameterLabel_succeeds h).map (succeeds_ok none)
  · exact succeeds_ite (succeeds_ok _) (succeeds_ok none)
  iterate 2 exact succeeds_ite (propertyLabel_succeeds h).map (succeeds_ok none)
  iterate 3 exact succeeds_ite (functionLabel_succeeds h).map (succeeds_ok none)
  iterate 3 exact succeeds_ite (methodLabel_succeeds h).map (succeeds_ok none)
  · exact succeeds_ok none

/-- What a name declares can be read. -/
theorem declaredInfo_succeeds {v : Visit} {name : String} (h : ∀ a ∈ v.ancestors, a.Fits src) :
    Succeeds (declaredInfo src v name) := by
  unfold declaredInfo
  split
  · exact succeeds_ok none
  · rename_i parent outer hancestors
    have hparent : parent.Fits src := h parent (by simp [hancestors])
    exact succeeds_ite (signatureOf_succeeds hparent).map (lineAbout_succeeds hparent).map

end HoverTips.Tree
