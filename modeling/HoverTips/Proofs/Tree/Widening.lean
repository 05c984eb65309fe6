import HoverTips.Tree.Declaration
import HoverTips.Proofs.Tree.Bare

/-! # Widened types

The type of an expression is read with or without widening, and the two readings
differ for literals alone: parentheses and `satisfies` around a literal are looked
through, and every other form of expression has one reading. Only the line about a
constant leaves a literal as it is (`literals_kept_by_constants`): elements, members
and parameters are widened also inside the type of a constant. -/

namespace HoverTips.Tree

variable {src : List Char} {l : Label} {cs : List Node} {widen : Bool}

/-! ## Expressions around expressions -/

/-- The expressions that have the type of the first rule in them. -/
def isWrapper (kind : String) : Bool :=
  kind == "parenthesized_expression" || kind == "satisfies_expression"

mutual

/-- An expression without the parentheses and `satisfies` around it. Those that hold no
rule stay. -/
def Node.unwrapped : Node → Node
  | .mk l cs => if isWrapper l.kind then (firstUnwrapped cs).getD (.mk l cs) else .mk l cs

/-- What the first rule among the children wraps. -/
def firstUnwrapped : List Node → Option Node
  | [] => none
  | c :: cs => if c.isNamed then some c.unwrapped else firstUnwrapped cs

end

theorem firstUnwrapped_eq (cs : List Node) :
    firstUnwrapped cs = (firstNamed? cs).elim none fun c => some c.unwrapped :=
  eq_elim_firstNamed? rfl (fun h => by rw [firstUnwrapped, if_pos h])
    (fun h => by rw [firstUnwrapped, h, if_neg Bool.false_ne_true]) cs

theorem unwrapped_plain (h : isWrapper l.kind = false) : (Node.mk l cs).unwrapped = .mk l cs := by
  rw [Node.unwrapped, h, if_neg Bool.false_ne_true]

theorem unwrapped_empty (h : firstNamed? cs = none) : (Node.mk l cs).unwrapped = .mk l cs := by
  rw [Node.unwrapped, firstUnwrapped_eq, h, Option.elim_none, Option.getD_none, ite_self]

theorem unwrapped_wrapped {c : Node} (h : isWrapper l.kind = true) (hc : firstNamed? cs = some c) :
    (Node.mk l cs).unwrapped = c.unwrapped := by
  rw [Node.unwrapped, if_pos h, firstUnwrapped_eq, hc]
  rfl

theorem inferType_wrapper (h : isWrapper l.kind = true) :
    inferType src widen (.mk l cs) =
      (Node.mk l cs).text src >>= fun _ => firstNamedType src widen cs := by
  rw [inferType]
  rcases Bool.or_eq_true_iff.mp h with hk | hk <;> rw [beq_iff_eq.mp hk] <;> rfl

theorem Node.Fits.unwrapped {n : Node} (h : n.Fits src) : n.unwrapped.Fits src := by
  induction n using Node.wrapped_induction isWrapper with
  | plain l cs hp => rwa [unwrapped_plain hp]
  | empty l cs _ hnone => rwa [unwrapped_empty hnone]
  | wrapped l cs c hp hc ih =>
    rw [unwrapped_wrapped hp hc]
    exact ih (h.children c (firstNamed?_mem hc))

/-- What stands around an expression does not matter to its type. -/
theorem inferType_unwrapped {n : Node} {type : String} (h : inferType src widen n = .ok type) :
    inferType src widen n.unwrapped = .ok type := by
  induction n using Node.wrapped_induction isWrapper with
  | plain l cs hp => rwa [unwrapped_plain hp]
  | empty l cs _ hnone => rwa [unwrapped_empty hnone]
  | wrapped l cs c hp hc ih =>
    rw [inferType_wrapper hp, firstNamedType_eq, hc] at h
    obtain ⟨_, _, h⟩ := bind_eq_ok_iff.mp h
    rw [unwrapped_wrapped hp hc]
    exact ih h

/-! ## Literals -/

/-- The literals that have a type of their own. A template string has none. -/
def isLiteral : String → Bool
  | "number" | "string" | "true" | "false" | "null" | "undefined" => true
  | _ => false

/-- The type that a literal has when it is widened: nothing is known of a variable that
is set to no value. -/
def LiteralBase.widened : LiteralBase → String
  | null | undefined => "any"
  | base => base.name

/-- The type that a literal has of its own: the literal. -/
def ownType (kind text : String) : String :=
  if kind == "number" || kind == "string" then text else kind

theorem numberType_eq (text : String) :
    numberType text = LiteralBase.widened
      (if text.toList.getLast? == some 'n' then .bigint else .number) := by
  unfold numberType
  split <;> rfl

theorem inferType_of_literal {text : String} (h : isLiteral l.kind = true)
    (ht : (Node.mk l cs).text src = .ok text) :
    ∃ base, literalBase? l.kind text = some base ∧
      inferType src false (.mk l cs) = .ok (ownType l.kind text) ∧
      inferType src true (.mk l cs) = .ok base.widened := by
  rw [inferType, inferType, ht]
  unfold isLiteral at h
  split at h
  case h_1 hk =>
    rw [hk]
    exact ⟨_, rfl, rfl, congrArg Except.ok (numberType_eq text)⟩
  case h_2 hk | h_3 hk | h_4 hk | h_5 hk | h_6 hk =>
    rw [hk]
    exact ⟨_, rfl, rfl, rfl⟩
  case h_7 => cases h

/-- All forms of expressions but literals and wrappers have one reading. -/
theorem inferType_of_plain (hw : isWrapper l.kind = false) (hl : isLiteral l.kind = false) :
    inferType src false (.mk l cs) = inferType src true (.mk l cs) := by
  rw [inferType, inferType]
  refine congrArg _ (funext fun text => ?_)
  split
  case h_1 hk | h_2 hk | h_4 hk | h_5 hk | h_6 hk | h_7 hk =>
    rw [hk] at hl
    cases hl
  case h_16 hk | h_17 hk =>
    rw [hk] at hw
    cases hw
  all_goals rfl

/-- Widening changes no type but that of a literal. -/
theorem inferType_widened {n : Node} (h : isLiteral n.unwrapped.kind = false) :
    inferType src false n = inferType src true n := by
  induction n using Node.wrapped_induction isWrapper with
  | plain l cs hp =>
    rw [unwrapped_plain hp] at h
    exact inferType_of_plain hp h
  | empty l cs hp hnone =>
    rw [inferType_wrapper hp, inferType_wrapper hp, firstNamedType_eq, firstNamedType_eq, hnone]
    rfl
  | wrapped l cs c hp hc ih =>
    rw [unwrapped_wrapped hp hc] at h
    rw [inferType_wrapper hp, inferType_wrapper hp, firstNamedType_eq, firstNamedType_eq, hc,
      Option.elim_some, Option.elim_some, ih h]

/-! ## Where types are shown -/

/-- The elements of an array: its rules without comments. -/
def elements (cs : List Node) : List Node := (named cs).filter (!·.isComment)

theorem elements_cons (c : Node) (cs : List Node) :
    elements (c :: cs) =
      if c.isNamed && c.kind != "comment" then c :: elements cs else elements cs := by
  rw [elements, named, List.filter_cons]
  cases c.isNamed with
  | true => exact List.filter_cons
  | false => rfl

theorem elementTypes_eq (cs : List Node) :
    elementTypes src cs = (elements cs).map (inferType src true) := by
  induction cs with
  | nil => rfl
  | cons c cs ih =>
    rw [elementTypes, ih, elements_cons]
    split <;> rfl

theorem elements_append (cs cs' : List Node) :
    elements (cs ++ cs') = elements cs ++ elements cs' := by
  rw [elements, named, List.filter_append, List.filter_append, ← named, ← named, elements, elements]

theorem elementTypes_append {n : Node} (before after : List Node) (hnamed : n.isNamed = true)
    (hcomment : n.isComment = false) :
    elementTypes src (before ++ n :: after) =
      elementTypes src before ++ inferType src true n :: elementTypes src after := by
  have hn : elements (n :: after) = n :: elements after := by
    rw [elements_cons, if_pos (by simpa [Node.isComment, hnamed] using hcomment)]
  rw [elementTypes_eq, elementTypes_eq, elementTypes_eq, elements_append, hn, List.map_append,
    List.map_cons]

theorem valueType_eq (cs : List Node) :
    valueType src cs = (field? "value" cs).map (inferType src true) := by
  induction cs with
  | nil => rfl
  | cons c cs ih =>
    rw [valueType, field?, List.find?_cons]
    cases c.fills "value" with
    | true => rfl
    | false => exact ih

/-- The children of a declaration that is set to a value and has no annotation. -/
structure SetTo (cs : List Node) (value : Node) : Prop where
  bare : field? "type" cs = none
  set : field? "value" cs = some value

theorem SetTo.declaredType {value : Node} (h : SetTo cs value) (widen : Bool) :
    declaredType src widen cs = inferType src widen value := by
  rw [Tree.declaredType, h.bare, h.set]

/-- Where the type of an expression is shown: `constant` in the line about a constant,
and `other` in the lines about all other names and inside other types. -/
structure ShownAs (src : List Char) (n : Node) (constant other : String) : Prop where
  variableLine : ∀ {declaration? declarator name}, SetTo declarator.children n →
    variableLabel src declaration? declarator name =
      .ok ("(" ++ variableKeyword declaration? ++ " variable) " ++ name ++ ": " ++
        if variableKeyword declaration? = "const" then constant else other)
  parameterLine : ∀ {parameter name}, SetTo parameter.children n →
    parameterLabel src parameter name =
      (fun default => "(parameter) " ++ name ++
        (if parameter.kind == "optional_parameter" then "?" else "") ++ ": " ++ other ++
          (" = " ++ default)) <$> n.compactText src
  propertyLine : ∀ {member name}, SetTo member.children n →
    propertyLabel src member name =
      (fun words => "(" ++ words ++ "property) " ++ name ++
        (if hasKind "?" member.children then "?" else "") ++ ": " ++ other) <$>
          modifierText src member.children
  element : ∀ {widen l before after}, l.kind = "array" → n.isNamed = true → n.isComment = false →
    inferType src widen (.mk l (before ++ n :: after)) =
      (Node.mk l (before ++ n :: after)).text src >>= fun _ => arrayType none
        (elementTypes src before ++ .ok other :: elementTypes src after)
  member : ∀ {l cs key}, l.kind = "pair" → field? "key" cs = some key →
    field? "value" cs = some n →
    memberType src (.mk l cs) =
      (fun key => some (key ++ ": " ++ other)) <$> key.compactText src
  parameter : ∀ {l cs pattern}, isParameter l.kind = true → SetTo cs n →
    field? "pattern" cs = some pattern →
    parameterText src (.mk l cs) =
      (fun pattern => some (pattern ++ "?" ++ ": " ++ other)) <$> pattern.compactText src

/-- The types of an expression are shown where it stands. -/
theorem shownAs_of_types {n : Node} {constant other : String}
    (hconstant : inferType src false n = .ok constant) (hother : inferType src true n = .ok other) :
    ShownAs src n constant other where
  variableLine {declaration? declarator name} h := by
    rw [variableLabel, h.declaredType]
    by_cases hk : variableKeyword declaration? = "const"
    · rw [hk, if_pos rfl, show ("const" != "const") = false from rfl, hconstant]
      rfl
    · rw [bne_iff_ne.mpr hk, if_neg hk, hother]
      rfl
  parameterLine {parameter name} h := by
    simp only [parameterLabel, h.declaredType, hother, h.set]
    cases n.compactText src <;> rfl
  propertyLine {member name} h := by
    rw [propertyLabel, h.declaredType, hother]
    cases modifierText src member.children <;> rfl
  element {widen l before after} hl hnamed hcomment := by
    rw [inferType, hl, elementTypes_append before after hnamed hcomment, hother]
    rfl
  member {l cs key} hl hkey hvalue := by
    rw [memberType, hl, valueType_eq, hvalue, Option.map_some, hother]
    simp only [pairText, hkey]
    cases key.compactText src <;> rfl
  parameter {l cs pattern} hl h hpattern := by
    rw [parameterText, if_pos hl, valueType_eq, h.set, Option.map_some, hother]
    simp only [parameterOf, hpattern, h.bare, Option.isSome_some, Bool.or_true, if_true]
    cases pattern.compactText src <;> rfl

/-- An expression has one type, unless it is a number, a string, a truth value or no
value, in any number of parentheses and `satisfies`. Such a literal is its own type in
the line about a constant, and has the type that it belongs to in the lines about all
other names, as an element, as a member and as the default of a parameter. -/
theorem literals_kept_by_constants (n : Node) :
    (isLiteral n.unwrapped.kind = false → inferType src false n = inferType src true n) ∧
      (n.Fits src → ∃ constant other, ShownAs src n constant other ∧
        inferType src false n = .ok constant ∧ inferType src true n = .ok other ∧
        (isLiteral n.unwrapped.kind = true → ∃ text base, n.unwrapped.text src = .ok text ∧
          literalBase? n.unwrapped.kind text = some base ∧
          constant = ownType n.unwrapped.kind text ∧ other = base.widened)) := by
  refine ⟨inferType_widened, fun hfits => ?_⟩
  obtain ⟨constant, hconstant⟩ : Succeeds (inferType src false n) := inferType_succeeds hfits
  obtain ⟨other, hother⟩ : Succeeds (inferType src true n) := inferType_succeeds hfits
  refine ⟨constant, other, shownAs_of_types hconstant hother, hconstant, hother, fun hl => ?_⟩
  obtain ⟨text, htext⟩ := Node.text_succeeds hfits.unwrapped
  have hkept := inferType_unwrapped hconstant
  have hwidened := inferType_unwrapped hother
  generalize n.unwrapped = m at *
  obtain ⟨l, cs⟩ := m
  obtain ⟨base, hbase, hown, hwide⟩ := inferType_of_literal hl htext
  exact ⟨text, base, htext, hbase, Except.ok.inj (hkept.symm.trans hown),
    Except.ok.inj (hwidened.symm.trans hwide)⟩

/-- The element of `[("s") satisfies string]`. -/
def stringElement : Node :=
  .mk ⟨"satisfies_expression", true, false, false, ⟨1, 23⟩, []⟩
    [.mk ⟨"parenthesized_expression", true, false, false, ⟨1, 6⟩, []⟩
      [.mk ⟨"(", false, false, false, ⟨1, 2⟩, []⟩ [],
        .mk ⟨"string", true, false, false, ⟨2, 5⟩, []⟩ [],
        .mk ⟨")", false, false, false, ⟨5, 6⟩, []⟩ []],
      .mk ⟨"satisfies", false, false, false, ⟨7, 16⟩, []⟩ [],
      .mk ⟨"predefined_type", true, false, false, ⟨17, 23⟩, []⟩ []]

def stringArray : Node :=
  .mk ⟨"array", true, false, false, ⟨0, 24⟩, []⟩
    [.mk ⟨"[", false, false, false, ⟨0, 1⟩, []⟩ [], stringElement,
      .mk ⟨"]", false, false, false, ⟨23, 24⟩, []⟩ []]

/-- A constant shows its string, and an array of the string is widened for a constant, too. -/
theorem literals_kept_by_constants_satisfies :
    let src := "[(\"s\") satisfies string]".toList
    stringArray.Fits src ∧ isLiteral stringArray.unwrapped.kind = false ∧
      isLiteral stringElement.unwrapped.kind = true ∧
      inferType src false stringArray = inferType src true stringArray ∧
      ShownAs src stringArray "string[]" "string[]" ∧
      ShownAs src stringElement "\"s\"" "string" := by
  intro src
  have hfits : stringArray.Fits src := by
    simp only [stringArray, stringElement, Node.Fits, Node.All, allNodes]
    decide
  have harray : isLiteral stringArray.unwrapped.kind = false := by decide
  obtain ⟨hsame, hshown⟩ := @literals_kept_by_constants src stringArray
  obtain ⟨constant, other, harrays, hconstant, hother, -⟩ := hshown hfits
  obtain rfl : "string[]" = constant := Except.ok.inj ((by rfl : _ = _).trans hconstant)
  obtain rfl : "string[]" = other := Except.ok.inj ((by rfl : _ = _).trans hother)
  have helement : stringElement.Fits src :=
    hfits.children stringElement (by simp [stringArray, Node.children])
  obtain ⟨constant, other, hstrings, hconstant, hother, -⟩ :=
    (@literals_kept_by_constants src stringElement).2 helement
  obtain rfl : "\"s\"" = constant := Except.ok.inj ((by rfl : _ = _).trans hconstant)
  obtain rfl : "string" = other := Except.ok.inj ((by rfl : _ = _).trans hother)
  exact ⟨hfits, harray, by decide, hsame harray, harrays, hstrings⟩

end HoverTips.Tree
