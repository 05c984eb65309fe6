import HoverTips.Tree.Walk
import HoverTips.Proofs.Text.Boundary
import HoverTips.Proofs.Tree.Nodes
import HoverTips.Proofs.Tree.Results

/-! # Trees that can be read

When every node of a tree lies between characters of the text, nothing that is
read off the tree fails: types, outlines, lines about names and literals all
have a value. One statement stands for each function, and those for functions
that recurse over the tree recurse as they do. -/

namespace HoverTips.Tree

/-- A label lies in the text, between characters. -/
structure Label.Fits (src : List Char) (l : Label) : Prop where
  ordered : l.span.start ≤ l.span.stop
  starts : Text.isBoundary src l.span.start = true
  stops : Text.isBoundary src l.span.stop = true

instance (src : List Char) (l : Label) : Decidable (l.Fits src) :=
  decidable_of_iff (l.span.start ≤ l.span.stop ∧ Text.isBoundary src l.span.start = true ∧
      Text.isBoundary src l.span.stop = true)
    ⟨fun ⟨h, hs, he⟩ => ⟨h, hs, he⟩, fun ⟨h, hs, he⟩ => ⟨h, hs, he⟩⟩

/-- All nodes of a tree lie in the text, between characters. -/
abbrev Node.Fits (src : List Char) (n : Node) : Prop := n.All (Label.Fits src)

variable {src : List Char}

theorem readSpan_succeeds {s : Span} (h : s.start ≤ s.stop)
    (hs : Text.isBoundary src s.start = true) (he : Text.isBoundary src s.stop = true) :
    Succeeds (readSpan src s) := by
  obtain ⟨piece, hp⟩ := Text.cut_of_boundaries h hs he
  exact ⟨piece, by rw [readSpan, hp]⟩

theorem Node.text_succeeds {n : Node} (h : n.Fits src) : Succeeds (n.text src) :=
  (readSpan_succeeds h.label.ordered h.label.starts h.label.stops).map

theorem Node.compactText_succeeds {n : Node} (h : n.Fits src) : Succeeds (n.compactText src) :=
  (Node.text_succeeds h).map

theorem annotationText_succeeds {note : Node} (h : note.Fits src) :
    Succeeds (annotationText src note) := by
  unfold annotationText
  split
  · rename_i type htype
    exact Node.compactText_succeeds (h.children type (firstNamed?_mem htype))
  · exact (Node.text_succeeds h).bind fun _ => succeeds_pure _

theorem modifiers_succeeds {cs : List Node} (h : ∀ c ∈ cs, c.Fits src) :
    Succeeds (modifiers src cs) := by
  refine succeeds_foldr (succeeds_ok []) fun c hc later hlater => ?_
  split
  iterate 2 exact (Node.compactText_succeeds (h c hc)).bind fun _ => hlater.bind fun _ =>
    succeeds_pure _
  iterate 7 exact succeeds_ite hlater hlater.map
  exact hlater

theorem fieldText_succeeds {name : String} {cs : List Node} (h : ∀ c ∈ cs, c.Fits src) :
    Succeeds (fieldText src name cs) := by
  unfold fieldText
  split
  · rename_i n hn
    exact Node.compactText_succeeds (h n (field?_mem hn))
  · exact succeeds_ok ""

theorem constructedType_succeeds {cs : List Node} (h : ∀ c ∈ cs, c.Fits src) :
    Succeeds (constructedType src cs) := by
  unfold constructedType
  split
  · exact succeeds_ok "any"
  · rename_i n hn
    exact (Node.compactText_succeeds (h n (field?_mem hn))).bind fun _ =>
      (fieldText_succeeds h).bind fun _ => succeeds_pure _

theorem assertedType_succeeds {cs : List Node} (h : ∀ c ∈ cs, c.Fits src) :
    Succeeds (assertedType src cs) := by
  unfold assertedType
  split
  · rename_i n hn
    exact Node.compactText_succeeds (h n (mem_of_mem_named (List.mem_of_getLast? hn)))
  · exact succeeds_ok "any"

theorem returnType_succeeds {cs : List Node} (h : ∀ c ∈ cs, c.Fits src) :
    Succeeds (returnType src cs) := by
  unfold returnType
  split
  · rename_i note hnote
    exact annotationText_succeeds (h note (field?_mem hnote))
  · exact succeeds_ok _

theorem arrayType_succeeds {seen : Option String} {elements : List (Reading String)}
    (h : ∀ e ∈ elements, Succeeds e) : Succeeds (arrayType seen elements) := by
  induction elements generalizing seen with
  | nil => cases seen <;> exact succeeds_ok _
  | cons e elements ih =>
    rw [List.forall_mem_cons] at h
    rw [arrayType]
    refine h.1.bind fun type => ?_
    cases seen with
    | none => exact ih h.2
    | some first =>
      dsimp only
      split
      · exact ih h.2
      · exact succeeds_pure _

theorem functionTypeOf_succeeds {cs : List Node} {parameters : Option (Reading String)}
    (h : ∀ c ∈ cs, c.Fits src) (hp : ∀ p ∈ parameters, Succeeds p) :
    Succeeds (functionTypeOf src cs parameters) := by
  have hrest : ∀ types list : String, Succeeds (do
      return types ++ list ++ " => " ++ (← returnType src cs)) := fun _ _ =>
    (returnType_succeeds h).bind fun _ => succeeds_pure _
  unfold functionTypeOf
  refine (fieldText_succeeds h).bind fun types => ?_
  split
  · exact (hp _ rfl).bind fun list => hrest types list
  · rename_i n hn
    exact (Node.text_succeeds (h n (field?_mem hn))).map.bind fun list => hrest types list
  · exact hrest types "()"

theorem callableTailOf_succeeds {cs : List Node} {parameters : Option (Reading String)}
    (h : ∀ c ∈ cs, c.Fits src) (hp : ∀ p ∈ parameters, Succeeds p) :
    Succeeds (callableTailOf src cs parameters) :=
  (fieldText_succeeds h).bind fun _ => (succeeds_getD hp (succeeds_ok _)).bind fun _ =>
    (returnType_succeeds h).bind fun _ => succeeds_pure _

theorem pairText_succeeds {cs : List Node} {value : Option (Reading String)}
    (h : ∀ c ∈ cs, c.Fits src) (hv : ∀ v ∈ value, Succeeds v) :
    Succeeds (pairText src cs value) := by
  unfold pairText
  split
  · exact succeeds_ok none
  · rename_i key hkey
    exact (Node.compactText_succeeds (h key (field?_mem hkey))).bind fun _ =>
      (succeeds_getD hv (succeeds_ok _)).bind fun _ => succeeds_pure _

theorem methodText_succeeds {cs : List Node} {parameters : Option (Reading String)}
    (h : ∀ c ∈ cs, c.Fits src) (hp : ∀ p ∈ parameters, Succeeds p) :
    Succeeds (methodText src cs parameters) := by
  unfold methodText
  split
  · exact succeeds_ok none
  · rename_i name hname
    exact (Node.text_succeeds (h name (field?_mem hname))).bind fun _ =>
      (callableTailOf_succeeds h hp).bind fun _ => succeeds_pure _

theorem parameterOf_succeeds {kind : String} {cs : List Node} {default? : Option (Reading String)}
    (h : ∀ c ∈ cs, c.Fits src) (hd : ∀ d ∈ default?, Succeeds d) :
    Succeeds (parameterOf src kind cs default?) := by
  unfold parameterOf
  split
  · exact succeeds_ok none
  · rename_i pattern hpattern
    have hrest : ∀ mark type : String, Succeeds (do
        return some ((← pattern.compactText src) ++ mark ++ ": " ++ type)) := fun _ _ =>
      (Node.compactText_succeeds (h pattern (field?_mem hpattern))).bind fun _ => succeeds_pure _
    cases hnote : field? "type" cs with
    | some note =>
      exact (annotationText_succeeds (h note (field?_mem hnote))).bind fun type => hrest _ type
    | none => exact (succeeds_getD hd (succeeds_ok _)).bind fun type => hrest _ type

/-! ## Types -/

mutual

/-- The type of an expression can be read. -/
theorem inferType_succeeds {widen : Bool} : ∀ {n : Node}, n.Fits src →
    Succeeds (inferType src widen n)
  | .mk l cs, h => by
    have hcs : ∀ c ∈ cs, c.Fits src := h.children
    rw [inferType]
    refine (Node.text_succeeds h).bind fun text => ?_
    split
    case h_9 => exact arrayType_succeeds (elementTypes_succeed h.2)
    case h_10 => exact (memberTypes_succeeds h.2).bind fun _ => succeeds_pure _
    case h_11 | h_12 | h_13 => exact functionTypeOf_succeeds hcs (parametersText_succeeds h.2)
    case h_14 => exact constructedType_succeeds hcs
    case h_15 => exact assertedType_succeeds hcs
    case h_16 | h_17 => exact firstNamedType_succeeds h.2
    all_goals exact succeeds_pure _

theorem firstNamedType_succeeds {widen : Bool} : ∀ {cs : List Node},
    allNodes (Label.Fits src) cs → Succeeds (firstNamedType src widen cs)
  | [], _ => succeeds_ok "any"
  | c :: cs, h => by
    rw [firstNamedType]
    exact succeeds_ite (inferType_succeeds h.1) (firstNamedType_succeeds h.2)

theorem elementTypes_succeed : ∀ {cs : List Node}, allNodes (Label.Fits src) cs →
    ∀ e ∈ elementTypes src cs, Succeeds e
  | [], _ => by simp [elementTypes]
  | c :: cs, h => by
    rw [elementTypes]
    split
    · exact List.forall_mem_cons.mpr ⟨inferType_succeeds h.1, elementTypes_succeed h.2⟩
    · exact elementTypes_succeed h.2

theorem memberTypes_succeeds : ∀ {cs : List Node}, allNodes (Label.Fits src) cs →
    Succeeds (memberTypes src cs)
  | [], _ => succeeds_ok []
  | c :: cs, h => by
    rw [memberTypes]
    exact succeeds_ite
      ((memberType_succeeds h.1).bind fun _ => (memberTypes_succeeds h.2).bind fun _ =>
        succeeds_pure _)
      (memberTypes_succeeds h.2)

theorem memberType_succeeds : ∀ {n : Node}, n.Fits src → Succeeds (memberType src n)
  | .mk l cs, h => by
    have hcs : ∀ c ∈ cs, c.Fits src := h.children
    rw [memberType]
    split
    · exact pairText_succeeds hcs (valueType_succeeds h.2)
    · exact (Node.text_succeeds h).map
    · exact methodText_succeeds hcs (parametersText_succeeds h.2)
    · exact succeeds_ok none

theorem valueType_succeeds : ∀ {cs : List Node}, allNodes (Label.Fits src) cs →
    ∀ v ∈ valueType src cs, Succeeds v
  | [], _ => by simp [valueType]
  | c :: cs, h => by
    rw [valueType]
    split
    · rintro v ⟨⟩
      exact inferType_succeeds h.1
    · exact valueType_succeeds h.2

theorem parametersText_succeeds : ∀ {cs : List Node}, allNodes (Label.Fits src) cs →
    ∀ p ∈ parametersText src cs, Succeeds p
  | [], _ => by simp [parametersText]
  | c :: cs, h => by
    rw [parametersText]
    split
    · rintro p ⟨⟩
      exact parameterList_succeeds h.1
    · exact parametersText_succeeds h.2

theorem parameterList_succeeds : ∀ {n : Node}, n.Fits src → Succeeds (parameterList src n)
  | .mk l cs, h => by
    rw [parameterList]
    exact (parameterTexts_succeeds h.2).bind fun _ => succeeds_pure _

theorem parameterTexts_succeeds : ∀ {cs : List Node}, allNodes (Label.Fits src) cs →
    Succeeds (parameterTexts src cs)
  | [], _ => succeeds_ok []
  | c :: cs, h => by
    rw [parameterTexts]
    exact succeeds_ite
      ((parameterText_succeeds h.1).bind fun _ => (parameterTexts_succeeds h.2).bind fun _ =>
        succeeds_pure _)
      (parameterTexts_succeeds h.2)

theorem parameterText_succeeds : ∀ {n : Node}, n.Fits src → Succeeds (parameterText src n)
  | .mk l cs, h => by
    rw [parameterText]
    exact succeeds_ite (parameterOf_succeeds h.children (valueType_succeeds h.2))
      (succeeds_ok none)

end

theorem callableTail_succeeds {cs : List Node} (h : ∀ c ∈ cs, c.Fits src) :
    Succeeds (callableTail src cs) :=
  callableTailOf_succeeds h (parametersText_succeeds (allNodes_iff.mpr h))

theorem declaredType_succeeds {widen : Bool} {cs : List Node} (h : ∀ c ∈ cs, c.Fits src) :
    Succeeds (declaredType src widen cs) := by
  unfold declaredType
  split
  · rename_i hnote
    exact annotationText_succeeds (h _ (field?_mem hnote))
  · rename_i hvalue
    exact inferType_succeeds (h _ (field?_mem hvalue))
  · exact succeeds_ok "any"

end HoverTips.Tree
