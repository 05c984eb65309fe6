import Mathlib.Tactic.MkIffOfInductiveProp
import HoverTips.Proofs.Text.Lines
import HoverTips.Proofs.Tree.Arrays
import HoverTips.Tree.Walk

/-! # Types on one line

Nearly all text that a type is made of is compacted when it is copied. What is not are
names, the names of methods in object literals, and literals that are not widened. Where
these are on one line, so is the type of an expression (`inferType_oneLine`,
`inferType_constant_oneLine`). Only the object literals count whose types are shown in that
type (`Node.MadeOf`), and none that stands behind an annotation or in the body of a function. -/

namespace HoverTips.Tree

open Text (OneLine)

variable {src : List Char} {l : Label} {cs : List Node} {n : Node}

/-! ## Text that is copied as it is written -/

/-- The text of a node is on one line. -/
def Node.OnOneLine (src : List Char) (n : Node) : Prop := Ensures OneLine (n.text src)

/-- The names in a node that titles show are on one line, as the names of a language are. -/
@[mk_iff]
structure Node.PlainNames (src : List Char) (n : Node) : Prop where
  identifier : isIdentifierKind n.kind = true → n.OnOneLine src
  typeName : (SignatureKind.ofNodeKind? n.kind).isSome = true →
    ∀ name ∈ field? "name" n.children, name.OnOneLine src
  parameter : n.isFunction = true → ∀ name ∈ field? "parameter" n.children, name.OnOneLine src

instance : DecidablePred (Node.OnOneLine src) := fun n =>
  inferInstanceAs (Decidable (Ensures OneLine (n.text src)))

instance : DecidablePred (Node.PlainNames src) := fun _ =>
  decidable_of_iff' _ (Node.plainNames_iff src _)

/-- If the node is a method, its name is on one line. -/
def Node.PlainMethod (src : List Char) (n : Node) : Prop :=
  n.kind = "method_definition" → ∀ name ∈ field? "name" n.children, name.OnOneLine src

/-- If the node is an object literal, the names of its methods are on one line. -/
def Node.PlainMethods (src : List Char) (n : Node) : Prop :=
  n.kind = "object" → ∀ m ∈ named n.children, m.PlainMethod src

/-- The names in and below a node are on one line. -/
def Node.Named (src : List Char) (n : Node) : Prop := ∀ m ∈ n.nodes, m.PlainNames src

theorem Node.Named.here (h : n.Named src) : n.PlainNames src := h n n.mem_nodes_self

theorem Node.Named.children (h : n.Named src) : ∀ c ∈ n.children, c.Named src :=
  n.forall_nodes_children h

/-! ## Expressions that types are made of -/

/-- The expression that the type of a name is inferred from: what the name is set to, unless
it has an annotation. -/
def inferredFrom? (cs : List Node) : Option Node :=
  if (field? "type" cs).isSome then none else field? "value" cs

/-- The defaults that the types of parameters are inferred from. -/
def parameterDefaults (list : Node) : List Node :=
  (named list.children).flatMap fun p =>
    if isParameter p.kind then (inferredFrom? p.children).toList else []

/-- The same for the parameters of a callable with these children. -/
def defaults (cs : List Node) : List Node :=
  (field? "parameters" cs).toList.flatMap parameterDefaults

/-- The expressions whose types are shown in a member of an object. -/
def memberParts (m : Node) : List Node :=
  match m.kind with
  | "pair" => (field? "value" m.children).toList
  | "method_definition" => defaults m.children
  | _ => []

/-- The expressions whose types are shown in the type of an expression. -/
def Node.typeParts (n : Node) : List Node :=
  match n.kind with
  | "array" => elements n.children
  | "object" => (named n.children).flatMap memberParts
  | "arrow_function" | "function_expression" | "function" => defaults n.children
  | "parenthesized_expression" | "satisfies_expression" => (firstNamed? n.children).toList
  | _ => []

/-- The type of an expression is made of the types of others, and of its own form. -/
inductive Node.MadeOf : Node → Node → Prop
  | self {n : Node} : MadeOf n n
  | part {n c m : Node} (mem : c ∈ n.typeParts) (rest : MadeOf c m) : MadeOf n m

/-- The object literals that the type of an expression is made of have methods with names on
one line. -/
def Node.Plain (src : List Char) (n : Node) : Prop := ∀ m, n.MadeOf m → m.PlainMethods src

theorem Node.plain_iff :
    n.Plain src ↔ n.PlainMethods src ∧ ∀ c ∈ n.typeParts, c.Plain src := by
  constructor
  · exact fun h => ⟨h n .self, fun c hc m hm => h m (.part hc hm)⟩
  · intro ⟨hhere, hparts⟩ m hm
    cases hm with
    | self => exact hhere
    | part mem rest => exact hparts _ mem m rest

/-! ## Parts of types -/

theorem compactText_oneLine : Ensures OneLine (n.compactText src) := by
  intro text h
  obtain ⟨written, _, rfl⟩ := map_eq_ok_iff.mp h
  exact Text.oneLine_compact written

theorem annotationText_oneLine {note : Node} : Ensures OneLine (annotationText src note) := by
  unfold annotationText
  split
  · exact compactText_oneLine
  · intro text h
    obtain ⟨_, _, h⟩ := bind_eq_ok_iff.mp h
    rw [← pure_eq_ok_iff.mp h]
    exact Text.oneLine_compact _

theorem fieldText_oneLine {name : String} : Ensures OneLine (fieldText src name cs) := by
  unfold fieldText
  split
  · exact compactText_oneLine
  · exact ensures_ok (by decide)

theorem constructedType_oneLine : Ensures OneLine (constructedType src cs) := by
  unfold constructedType
  split
  · exact ensures_ok (by decide)
  · exact compactText_oneLine.bind fun _ hname => fieldText_oneLine.bind fun _ harguments =>
      ensures_pure (hname.append harguments)

theorem assertedType_oneLine : Ensures OneLine (assertedType src cs) := by
  unfold assertedType
  split
  · exact compactText_oneLine
  · exact ensures_ok (by decide)

theorem impliedReturn_oneLine : OneLine (impliedReturn cs) := by
  unfold impliedReturn
  cases field? "body" cs <;> simp +decide

theorem returnType_oneLine : Ensures OneLine (returnType src cs) := by
  unfold returnType
  split
  · exact annotationText_oneLine
  · exact ensures_ok impliedReturn_oneLine

theorem arrayType_oneLine {elements : List (Reading String)} {seen : Option String}
    (hseen : ∀ type ∈ seen, OneLine type) (h : ∀ e ∈ elements, Ensures OneLine e) :
    Ensures OneLine (arrayType seen elements) := by
  induction elements generalizing seen with
  | nil =>
    cases seen with
    | none => exact ensures_ok (by decide)
    | some type =>
      have htype := hseen type rfl
      refine ensures_ok ?_
      split
      · exact (OneLine.append (by decide) htype).append (by decide)
      · exact htype.append (by decide)
  | cons e elements ih =>
    rw [List.forall_mem_cons] at h
    rw [arrayType]
    refine h.1.bind fun type htype => ?_
    cases seen with
    | none => exact ih (by simpa using htype) h.2
    | some first => exact ensures_ite (fun _ => ih hseen h.2) fun _ => ensures_pure (by decide)

theorem objectType_oneLine {members : List String} (h : ∀ m ∈ members, OneLine m) :
    OneLine (objectType members) := by
  unfold objectType
  split
  · decide
  · exact (OneLine.append (by decide) (Text.oneLine_intercalate (by decide) h)).append (by decide)

theorem functionTypeOf_oneLine {parameters : Option (Reading String)}
    (hp : ∀ p ∈ parameters, Ensures OneLine p)
    (hname : ∀ name ∈ field? "parameter" cs, name.OnOneLine src) :
    Ensures OneLine (functionTypeOf src cs parameters) := by
  have hrest : ∀ types list : String, OneLine types → OneLine list → Ensures OneLine (do
      return types ++ list ++ " => " ++ (← returnType src cs)) :=
    fun types list htypes hlist => returnType_oneLine.bind fun _ hreturn =>
      ensures_pure (by simp +decide [htypes, hlist, hreturn])
  unfold functionTypeOf
  refine fieldText_oneLine.bind fun types htypes => ?_
  split
  · exact (hp _ rfl).bind fun list hlist => hrest types list htypes hlist
  · rename_i single hsingle
    refine Ensures.bind (Ensures.map (hname single hsingle) fun name h => ?_)
      fun list hlist => hrest types list htypes hlist
    exact (OneLine.append (by decide) h).append (by decide)
  · exact hrest types "()" htypes (by decide)

theorem callableTailOf_oneLine {parameters : Option (Reading String)}
    (hp : ∀ p ∈ parameters, Ensures OneLine p) :
    Ensures OneLine (callableTailOf src cs parameters) := by
  refine fieldText_oneLine.bind fun types htypes => Ensures.bind (P := OneLine) ?_ fun list hlist =>
    returnType_oneLine.bind fun _ hreturn =>
      ensures_pure (by simp +decide [htypes, hlist, hreturn])
  cases parameters with
  | none => exact ensures_ok (by decide)
  | some p => exact hp p rfl

theorem pairText_oneLine {value : Option (Reading String)} (hv : ∀ v ∈ value, Ensures OneLine v) :
    Ensures (∀ t ∈ ·, OneLine t) (pairText src cs value) := by
  have hvalue : Ensures OneLine (value.getD (.ok "any")) := by
    cases value with
    | none => exact ensures_ok (by decide)
    | some v => exact hv v rfl
  unfold pairText
  split
  · exact ensures_none
  · exact compactText_oneLine.bind fun key hkey => hvalue.bind fun type htype =>
      ensures_some ((hkey.append (by decide)).append htype)

theorem methodText_oneLine {parameters : Option (Reading String)}
    (hp : ∀ p ∈ parameters, Ensures OneLine p)
    (hname : ∀ name ∈ field? "name" cs, name.OnOneLine src) :
    Ensures (∀ t ∈ ·, OneLine t) (methodText src cs parameters) := by
  unfold methodText
  split
  · exact ensures_none
  · rename_i node hnode
    exact (hname node hnode).bind fun name h => (callableTailOf_oneLine hp).bind
      fun tail htail => ensures_some (h.append htail)

theorem parameterOf_oneLine {kind : String} {default? : Option (Reading String)}
    (hd : field? "type" cs = none → ∀ d ∈ default?, Ensures OneLine d) :
    Ensures (∀ t ∈ ·, OneLine t) (parameterOf src kind cs default?) := by
  have hrest : ∀ {pattern : Node} {optional : Bool} {type : String}, OneLine type →
      Ensures (∀ t ∈ ·, OneLine t) (do
        return some ((← pattern.compactText src) ++ (if optional then "?" else "") ++ ": " ++
          type)) := by
    intro pattern optional type htype
    exact compactText_oneLine.bind fun text htext =>
      ensures_some (by simp +decide [htext, htype])
  unfold parameterOf
  split
  · exact ensures_none
  · cases htype : field? "type" cs with
    | some note => exact annotationText_oneLine.bind fun _ htype => hrest htype
    | none =>
      have hdefault : Ensures OneLine (default?.getD (.ok "any")) := by
        cases default? with
        | none => exact ensures_ok (by decide)
        | some d => exact hd htype d rfl
      exact hdefault.bind fun _ htype => hrest htype

theorem numberType_oneLine {text : String} : OneLine (numberType text) := by
  unfold numberType
  split <;> decide

theorem operatorType_oneLine {typeOf : String → String} (h : ∀ kind, OneLine (typeOf kind)) :
    OneLine (operatorType typeOf cs) := by
  unfold operatorType
  split
  · exact h _
  · decide

theorem prefixOperatorType_oneLine (kind : String) : OneLine (prefixOperatorType kind) := by
  unfold prefixOperatorType
  split <;> decide

theorem infixOperatorType_oneLine (kind : String) : OneLine (infixOperatorType kind) := by
  unfold infixOperatorType
  split <;> decide

/-! ## Types of expressions -/

mutual

/-- The widened type of an expression is on one line. -/
theorem inferType_oneLine : ∀ {n : Node}, n.Named src → n.Plain src →
    Ensures OneLine (inferType src true n)
  | .mk l cs, hn, h => by
    obtain ⟨hmethods, hparts⟩ := Node.plain_iff.mp h
    have hcs : ∀ c ∈ cs, c.Named src := hn.children
    have hfunction : (Node.mk l cs).isFunction = true → (∀ v ∈ defaults cs, v.Plain src) →
        Ensures OneLine (functionTypeOf src cs (parametersText src cs)) := fun hf hd =>
      functionTypeOf_oneLine (parametersText_oneLine hcs hd) (hn.here.parameter hf)
    unfold Node.typeParts at hparts
    rw [inferType]
    refine ensures_bind fun text => ?_
    split
    case h_1 => exact ensures_pure numberType_oneLine
    case h_2 | h_4 | h_5 | h_6 | h_7 => exact ensures_pure (by rw [if_pos rfl]; decide)
    case h_9 hk =>
      rw [show (Node.mk l cs).kind = _ from hk] at hparts
      exact arrayType_oneLine (by simp) (elementTypes_oneLine hcs hparts)
    case h_10 hk =>
      rw [show (Node.mk l cs).kind = _ from hk] at hparts
      exact (memberTypes_oneLine hcs (hmethods hk) (List.forall_mem_flatMap.mp hparts)).bind
        fun _ hm => ensures_pure (objectType_oneLine hm)
    case h_11 hk | h_12 hk | h_13 hk =>
      rw [show (Node.mk l cs).kind = _ from hk] at hparts
      exact hfunction (by simp [Node.isFunction, Node.kind, Node.label, hk]) hparts
    case h_14 => exact constructedType_oneLine
    case h_15 => exact assertedType_oneLine
    case h_16 hk | h_17 hk =>
      rw [show (Node.mk l cs).kind = _ from hk] at hparts
      exact firstNamedType_oneLine hcs fun c hc => hparts c (Option.mem_toList.mpr hc)
    case h_18 => exact ensures_pure (operatorType_oneLine prefixOperatorType_oneLine)
    case h_19 => exact ensures_pure (operatorType_oneLine infixOperatorType_oneLine)
    all_goals exact ensures_pure (by decide)

theorem firstNamedType_oneLine : ∀ {cs : List Node}, (∀ c ∈ cs, c.Named src) →
    (∀ c ∈ firstNamed? cs, c.Plain src) → Ensures OneLine (firstNamedType src true cs)
  | [], _, _ => ensures_ok (by decide)
  | c :: cs, hn, h => by
    rw [List.forall_mem_cons] at hn
    rw [firstNamed?, List.find?_cons] at h
    rw [firstNamedType]
    cases hnamed : c.isNamed with
    | true =>
      rw [hnamed] at h
      exact inferType_oneLine hn.1 (h c rfl)
    | false =>
      rw [hnamed] at h
      exact firstNamedType_oneLine hn.2 h

theorem elementTypes_oneLine : ∀ {cs : List Node}, (∀ c ∈ cs, c.Named src) →
    (∀ e ∈ elements cs, e.Plain src) → ∀ t ∈ elementTypes src cs, Ensures OneLine t
  | [], _, _ => nofun
  | c :: cs, hn, h => by
    rw [List.forall_mem_cons] at hn
    rw [elements_cons] at h
    rw [elementTypes]
    split
    · rename_i helement
      rw [if_pos helement, List.forall_mem_cons] at h
      exact List.forall_mem_cons.mpr ⟨inferType_oneLine hn.1 h.1, elementTypes_oneLine hn.2 h.2⟩
    · rename_i helement
      rw [if_neg helement] at h
      exact elementTypes_oneLine hn.2 h

theorem memberTypes_oneLine : ∀ {cs : List Node}, (∀ c ∈ cs, c.Named src) →
    (∀ m ∈ named cs, m.PlainMethod src) → (∀ m ∈ named cs, ∀ v ∈ memberParts m, v.Plain src) →
    Ensures (∀ m ∈ ·, OneLine m) (memberTypes src cs)
  | [], _, _, _ => ensures_nil
  | c :: cs, hn, hm, h => by
    rw [List.forall_mem_cons] at hn
    rw [memberTypes]
    refine ensures_ite (fun hnamed => ?_) fun hnamed => ?_
    · rw [named, List.filter_cons_of_pos hnamed, List.forall_mem_cons] at hm h
      refine (memberType_oneLine hn.1 hm.1 h.1).bind fun member hmember =>
        (memberTypes_oneLine hn.2 hm.2 h.2).bind fun members hmembers => ensures_pure ?_
      rw [List.forall_mem_append]
      exact ⟨fun t ht => hmember t (Option.mem_toList.mp ht), hmembers⟩
    · rw [named, List.filter_cons_of_neg hnamed] at hm h
      exact memberTypes_oneLine hn.2 hm h

theorem memberType_oneLine : ∀ {n : Node}, n.Named src → n.PlainMethod src →
    (∀ v ∈ memberParts n, v.Plain src) → Ensures (∀ t ∈ ·, OneLine t) (memberType src n)
  | .mk l cs, hn, hm, h => by
    unfold memberParts at h
    rw [memberType]
    split
    · rename_i hk
      rw [show (Node.mk l cs).kind = _ from hk] at h
      exact pairText_oneLine (valueType_oneLine hn.children fun v hv =>
        h v (Option.mem_toList.mpr hv))
    · rename_i hk
      have hname : (Node.mk l cs).OnOneLine src :=
        hn.here.identifier (by rw [show (Node.mk l cs).kind = _ from hk]; rfl)
      exact hname.map_some fun name hname => hname.append (by decide)
    · rename_i hk
      rw [show (Node.mk l cs).kind = _ from hk] at h
      exact methodText_oneLine (parametersText_oneLine hn.children h) (hm hk)
    · exact ensures_none

theorem valueType_oneLine : ∀ {cs : List Node}, (∀ c ∈ cs, c.Named src) →
    (∀ v ∈ field? "value" cs, v.Plain src) → ∀ t ∈ valueType src cs, Ensures OneLine t
  | [], _, _ => nofun
  | c :: cs, hn, h => by
    rw [List.forall_mem_cons] at hn
    rw [field?_cons] at h
    rw [valueType]
    split
    · rename_i hvalue
      rw [if_pos hvalue] at h
      rintro t ⟨⟩
      exact inferType_oneLine hn.1 (h c rfl)
    · rename_i hvalue
      rw [if_neg hvalue] at h
      exact valueType_oneLine hn.2 h

theorem parametersText_oneLine : ∀ {cs : List Node}, (∀ c ∈ cs, c.Named src) →
    (∀ v ∈ defaults cs, v.Plain src) → ∀ p ∈ parametersText src cs, Ensures OneLine p
  | [], _, _ => nofun
  | c :: cs, hn, h => by
    rw [List.forall_mem_cons] at hn
    rw [defaults, field?_cons] at h
    rw [parametersText]
    split
    · rename_i hlist
      rw [if_pos hlist] at h
      rintro p ⟨⟩
      exact parameterList_oneLine hn.1 (by simpa using h)
    · rename_i hlist
      rw [if_neg hlist] at h
      exact parametersText_oneLine hn.2 h

theorem parameterList_oneLine : ∀ {n : Node}, n.Named src →
    (∀ v ∈ parameterDefaults n, v.Plain src) → Ensures OneLine (parameterList src n)
  | .mk l cs, hn, h => by
    rw [parameterList]
    refine (parameterTexts_oneLine hn.children (List.forall_mem_flatMap.mp h)).bind
      fun parameters hparameters => ensures_pure ?_
    have hlist : OneLine (", ".intercalate parameters) :=
      Text.oneLine_intercalate (by decide) hparameters
    simp +decide [hlist]

theorem parameterTexts_oneLine : ∀ {cs : List Node}, (∀ c ∈ cs, c.Named src) →
    (∀ p ∈ named cs, ∀ v ∈ if isParameter p.kind then (inferredFrom? p.children).toList else [],
      v.Plain src) → Ensures (∀ p ∈ ·, OneLine p) (parameterTexts src cs)
  | [], _, _ => ensures_nil
  | c :: cs, hn, h => by
    rw [List.forall_mem_cons] at hn
    rw [parameterTexts]
    refine ensures_ite (fun hnamed => ?_) fun hnamed => ?_
    · rw [named, List.filter_cons_of_pos hnamed, List.forall_mem_cons] at h
      refine (parameterText_oneLine hn.1 h.1).bind fun parameter hparameter =>
        (parameterTexts_oneLine hn.2 h.2).bind fun parameters hparameters => ensures_pure ?_
      rw [List.forall_mem_append]
      exact ⟨fun t ht => hparameter t (Option.mem_toList.mp ht), hparameters⟩
    · rw [named, List.filter_cons_of_neg hnamed] at h
      exact parameterTexts_oneLine hn.2 h

theorem parameterText_oneLine : ∀ {n : Node}, n.Named src →
    (∀ v ∈ if isParameter n.kind then (inferredFrom? n.children).toList else [], v.Plain src) →
    Ensures (∀ t ∈ ·, OneLine t) (parameterText src n)
  | .mk l cs, hn, h => by
    rw [parameterText]
    refine ensures_ite (fun hk => parameterOf_oneLine fun hbare => ?_) fun _ => ensures_none
    rw [if_pos (show isParameter (Node.mk l cs).kind = true from hk)] at h
    refine valueType_oneLine hn.children fun v hv => h v (Option.mem_toList.mpr ?_)
    rwa [inferredFrom?, show field? "type" (Node.mk l cs).children = none from hbare]

end

/-- If the node is a literal that a constant shows as it is written, it is on one line. -/
def Node.PlainLiteral (src : List Char) (n : Node) : Prop :=
  n.kind = "number" ∨ n.kind = "string" → n.OnOneLine src

instance : DecidablePred (Node.PlainLiteral src) := fun n =>
  inferInstanceAs (Decidable (n.kind = "number" ∨ n.kind = "string" → _))

theorem ownType_oneLine {kind text : String} (hkind : isLiteral kind = true)
    (h : kind = "number" ∨ kind = "string" → OneLine text) : OneLine (ownType kind text) := by
  unfold isLiteral at hkind
  split at hkind
  · exact h (.inl rfl)
  · exact h (.inr rfl)
  iterate 4
    rw [ownType, if_neg (by decide)]
    decide
  cases hkind

/-- The type of an expression that is not widened is on one line if its literal is. -/
theorem inferType_constant_oneLine (hn : n.Named src) (h : n.Plain src)
    (hliteral : n.unwrapped.PlainLiteral src) : Ensures OneLine (inferType src false n) := by
  intro type htype
  cases hkind : isLiteral n.unwrapped.kind with
  | false =>
    rw [inferType_widened hkind] at htype
    exact inferType_oneLine hn h type htype
  | true =>
    have htype := inferType_unwrapped htype
    generalize n.unwrapped = m at *
    obtain ⟨l, cs⟩ := m
    have hread := htype
    rw [inferType] at hread
    obtain ⟨text, htext, _⟩ := bind_eq_ok_iff.mp hread
    obtain ⟨_, _, hown, _⟩ := inferType_of_literal hkind htext
    obtain rfl := Except.ok.inj (htype.symm.trans hown)
    exact ownType_oneLine hkind fun hk => hliteral hk text htext

/-! ## Types of names -/

/-- The types of a declaration with these children are made of object literals that have
methods with names on one line: the type of the name and those of the parameters. -/
structure PlainTypes (src : List Char) (cs : List Node) : Prop where
  value : ∀ value ∈ inferredFrom? cs, value.Plain src
  parameters : ∀ value ∈ defaults cs, value.Plain src

/-- If the type of a name is inferred from a literal, that is on one line. -/
def PlainInitializer (src : List Char) (cs : List Node) : Prop :=
  ∀ value ∈ inferredFrom? cs, value.unwrapped.PlainLiteral src

instance : Decidable (PlainInitializer src cs) :=
  inferInstanceAs (Decidable (∀ value ∈ inferredFrom? cs, value.unwrapped.PlainLiteral src))

theorem declaredType_oneLine (widen : Bool) (hn : ∀ c ∈ cs, c.Named src) (h : PlainTypes src cs)
    (hliteral : widen = false → PlainInitializer src cs) :
    Ensures OneLine (declaredType src widen cs) := by
  unfold declaredType
  split
  · exact annotationText_oneLine
  · rename_i value hbare hvalue
    have hfrom : value ∈ inferredFrom? cs := by
      rw [inferredFrom?, hbare]
      exact hvalue
    have hnamed := hn value (field?_mem hvalue)
    cases widen with
    | true => exact inferType_oneLine hnamed (h.value value hfrom)
    | false =>
      exact inferType_constant_oneLine hnamed (h.value value hfrom) (hliteral rfl value hfrom)
  · exact ensures_ok (by decide)

theorem callableTail_oneLine (hn : ∀ c ∈ cs, c.Named src) (h : PlainTypes src cs) :
    Ensures OneLine (callableTail src cs) :=
  callableTailOf_oneLine (parametersText_oneLine hn h.parameters)

end HoverTips.Tree
