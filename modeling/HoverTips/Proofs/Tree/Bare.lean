import HoverTips.Proofs.Tree.Readable
import HoverTips.Proofs.Tree.Verdicts

/-! # Types and values without comments

Comments are rules, and so they stand among the children of a type like its members.
Leaving them out of unions and parentheses changes neither the verdict of a type nor
how it is shown, as long as none of them is a leaf (`Node.verdict_bareType`,
`Node.shownType_bareType`). An expression in parentheses is read through its first
rule, so a comment that stands there hides it (`read_bareValue`, `read_of_comment`). -/

namespace HoverTips.Tree

variable {src : List Char} {l : Literal}

def Node.isComment (n : Node) : Bool := n.kind == "comment"

/-! ## Leaving comments out -/

/-- The types that are made of the types right below them. -/
def isComposite (kind : String) : Bool := kind == "union_type" || kind == "parenthesized_type"

mutual

/-- A type without the comments right below the unions and the parentheses in it. -/
def Node.bareType : Node → Node
  | .mk l cs => .mk l (bareTypes (isComposite l.kind) cs)

/-- The children of a type, without comments if these are to be left out. -/
def bareTypes (leaveOut : Bool) : List Node → List Node
  | [] => []
  | c :: cs =>
    if leaveOut && c.isComment then bareTypes leaveOut cs
    else c.bareType :: bareTypes leaveOut cs

end

/-- An annotation without the comments that do not belong to a single type. -/
def Node.bareNote : Node → Node
  | .mk l cs => .mk l (bareTypes true cs)

def isParentheses (kind : String) : Bool := kind == "parenthesized_expression"

mutual

/-- An expression without the comments right below the parentheses around it. -/
def Node.bareValue : Node → Node
  | .mk l cs => if isParentheses l.kind then .mk l (bareValues cs) else .mk l cs

def bareValues : List Node → List Node
  | [] => []
  | c :: cs => if c.isComment then bareValues cs else c.bareValue :: bareValues cs

end

mutual

/-- An expression without the parentheses around it. Parentheses that hold no rule stay. -/
def Node.core : Node → Node
  | .mk l cs => if isParentheses l.kind then (firstCore cs).getD (.mk l cs) else .mk l cs

/-- The core of the first rule among the children. -/
def firstCore : List Node → Option Node
  | [] => none
  | c :: cs => if c.isNamed then some c.core else firstCore cs

end

section Rules

variable {c : Node} {cs : List Node}

theorem firstNamed?_keep (h : c.isNamed = true) : firstNamed? (c :: cs) = some c :=
  List.find?_cons_of_pos h

theorem firstNamed?_skip (h : c.isNamed = false) : firstNamed? (c :: cs) = firstNamed? cs :=
  List.find?_cons_of_neg (by simp [h])

/-- A function that looks for the first rule is that rule's value, or the one of no rule. -/
theorem eq_elim_firstNamed? {α : Type} {f : List Node → α} {g : Node → α} {d : α}
    (hnil : f [] = d)
    (hkeep : ∀ {c : Node} {cs : List Node}, c.isNamed = true → f (c :: cs) = g c)
    (hskip : ∀ {c : Node} {cs : List Node}, c.isNamed = false → f (c :: cs) = f cs)
    (cs : List Node) : f cs = (firstNamed? cs).elim d g := by
  induction cs with
  | nil => exact hnil
  | cons c cs ih =>
    cases hnamed : c.isNamed with
    | true => rw [hkeep hnamed, firstNamed?_keep hnamed, Option.elim_some]
    | false => rw [hskip hnamed, firstNamed?_skip hnamed, ih]

theorem firstNamed?_map {f : Node → Node} (hf : ∀ n : Node, (f n).isNamed = n.isNamed) :
    firstNamed? (cs.map f) = (firstNamed? cs).map f := by
  rw [firstNamed?, List.find?_map, show (·.isNamed) ∘ f = (·.isNamed) from funext hf, firstNamed?]

/-- The first rule stays the first one when comments are left out, unless it is one. -/
theorem firstNamed?_filter (h : ∀ c ∈ firstNamed? cs, c.isComment = false) :
    firstNamed? (cs.filter (!·.isComment)) = firstNamed? cs := by
  induction cs with
  | nil => rfl
  | cons c cs ih =>
    rw [List.filter_cons]
    cases hnamed : c.isNamed with
    | true =>
      rw [h c (firstNamed?_keep hnamed), Bool.not_false, if_pos rfl, firstNamed?_keep hnamed,
        firstNamed?_keep hnamed]
    | false =>
      rw [firstNamed?_skip hnamed] at h ⊢
      split
      · rw [firstNamed?_skip hnamed, ih h]
      · exact ih h

end Rules

/-! ## Types -/

@[simp] theorem Node.bareType_label (n : Node) : n.bareType.label = n.label := by
  cases n
  rw [Node.bareType]
  rfl

@[simp] theorem Node.bareType_isNamed (n : Node) : n.bareType.isNamed = n.isNamed := by
  rw [Node.isNamed, Node.bareType_label, Node.isNamed]

@[simp] theorem Node.bareType_kind (n : Node) : n.bareType.kind = n.kind := by
  rw [Node.kind, Node.bareType_label, Node.kind]

@[simp] theorem Node.bareType_text (n : Node) : n.bareType.text src = n.text src := by
  rw [Node.text, Node.span, Node.bareType_label, Node.text, Node.span]

mutual

/-- Literals hold no comments that are left out. -/
theorem literalOf_bareType : ∀ n : Node, literalOf src n.bareType = literalOf src n
  | .mk label cs => by
    have htext : (Node.mk label cs).bareType.text src = (Node.mk label cs).text src :=
      Node.bareType_text _
    rw [Node.bareType] at htext ⊢
    rw [literalOf, literalOf, htext]
    split
    · rename_i h
      have hplain : isComposite label.kind = false := by
        rw [beq_iff_eq.mp h]
        decide
      rw [hplain, firstLiteral_bareTypes]
    · rfl

theorem firstLiteral_bareTypes :
    ∀ cs : List Node, firstLiteral src (bareTypes false cs) = firstLiteral src cs
  | [] => rfl
  | c :: cs => by
    rw [bareTypes, Bool.false_and, if_neg Bool.false_ne_true, firstLiteral, firstLiteral,
      Node.bareType_isNamed, literalOf_bareType c, firstLiteral_bareTypes cs]

end

theorem bareTypes_false (cs : List Node) : bareTypes false cs = cs.map Node.bareType := by
  induction cs with
  | nil => rfl
  | cons c cs ih => rw [bareTypes, Bool.false_and, if_neg Bool.false_ne_true, ih, List.map_cons]

theorem bareTypes_true (cs : List Node) :
    bareTypes true cs = (cs.filter (!·.isComment)).map Node.bareType := by
  induction cs with
  | nil => rfl
  | cons c cs ih =>
    rw [bareTypes, ih, List.filter_cons]
    cases c.isComment <;> rfl

theorem literalOfType_bareTypes (cs : List Node) :
    literalOfType src (bareTypes false cs) = literalOfType src cs := by
  rw [literalOfType, literalOfType, bareTypes_false, firstNamed?_map Node.bareType_isNamed]
  cases firstNamed? cs with
  | none => rfl
  | some inner =>
    simp only [Option.map_some, Node.bareType_kind, Node.bareType_text, literalOf_bareType]

/-- None of the nodes is a comment. -/
def NoComment (ns : List Node) : Prop := ∀ n ∈ ns, n.isComment = false

theorem leaves_comment {n : Node} (h : n.isComment = true) : n.leaves = [n] := by
  obtain ⟨label, cs⟩ := n
  have hkind : label.kind = "comment" := beq_iff_eq.mp h
  exact leaves_plain (by rw [hkind]; decide) (by rw [hkind]; decide)

/-- A comment is a leaf of its own. -/
theorem NoComment.isComment {n : Node} (h : NoComment n.leaves) : n.isComment = false := by
  cases hn : n.isComment with
  | false => rfl
  | true =>
    rw [leaves_comment hn] at h
    exact hn.symm.trans (h n (List.mem_singleton.mpr rfl))

theorem NoComment.member {c : Node} {cs : List Node} (h : NoComment (memberLeaves (c :: cs))) :
    (c.isNamed = true → NoComment c.leaves) ∧ NoComment (memberLeaves cs) := by
  rw [memberLeaves] at h
  split at h
  · obtain ⟨hc, hcs⟩ := List.forall_mem_append.mp h
    exact ⟨fun _ => hc, hcs⟩
  · rename_i hnamed
    exact ⟨fun hn => absurd hn hnamed, h⟩

section Siblings

variable {c : Node} {cs : List Node}

theorem bareTypes_keep (h : c.isComment = false) :
    bareTypes true (c :: cs) = c.bareType :: bareTypes true cs := by
  rw [bareTypes, h, Bool.and_false, if_neg Bool.false_ne_true]

/-- What looks at rules only does not see whether another child is left out. -/
theorem bareTypes_skip {α : Type} {f : List Node → α}
    (hf : ∀ {c : Node} {cs : List Node}, c.isNamed = false → f (c :: cs) = f cs)
    (h : c.isNamed = false) : f (bareTypes true (c :: cs)) = f (bareTypes true cs) := by
  rw [bareTypes]
  split
  · rfl
  · exact hf ((Node.bareType_isNamed c).trans h)

theorem unionVerdict_skip {literalTarget unknown : Bool} (h : c.isNamed = false) :
    unionVerdict src l literalTarget unknown (c :: cs) =
      unionVerdict src l literalTarget unknown cs := by
  rw [unionVerdict, h, if_neg Bool.false_ne_true]

theorem firstVerdict_skip (h : c.isNamed = false) :
    firstVerdict src l (c :: cs) = firstVerdict src l cs := by
  rw [firstVerdict, h, if_neg Bool.false_ne_true]

theorem shownMembers_skip (h : c.isNamed = false) :
    shownMembers src (c :: cs) = shownMembers src cs := by
  rw [shownMembers, h, if_neg Bool.false_ne_true]

theorem shownFirst_skip (h : c.isNamed = false) :
    shownFirst src (c :: cs) = shownFirst src cs := by
  rw [shownFirst, h, if_neg Bool.false_ne_true]

end Siblings

/-- The first rule of some siblings is not a comment, if they are in a parenthesized
type whose leaves are not. -/
theorem NoComment.first {c : Node} {cs : List Node}
    (h : ∀ ns ∈ innerLeaves (c :: cs), NoComment ns) :
    (c.isNamed = true → NoComment c.leaves) ∧
      (c.isNamed = false → ∀ ns ∈ innerLeaves cs, NoComment ns) := by
  rw [innerLeaves] at h
  constructor
  · intro hnamed
    rw [if_pos hnamed] at h
    exact h c.leaves rfl
  · intro hnamed
    rwa [hnamed, if_neg Bool.false_ne_true] at h

theorem NoComment.inner {label : Label} {cs : List Node} (hkind : label.kind = "parenthesized_type")
    (h : NoComment (Node.mk label cs).leaves) : ∀ ns ∈ innerLeaves cs, NoComment ns := by
  rw [Node.leaves, hkind] at h
  intro ns hns
  rwa [hns] at h

mutual

/-- Comments that are no leaves do not matter to the verdict. -/
theorem Node.verdict_bareType : ∀ {n : Node}, NoComment n.leaves →
    n.bareType.verdict src l = n.verdict src l
  | .mk label cs, h => by
    have htext : (Node.mk label cs).bareType.text src = (Node.mk label cs).text src :=
      Node.bareType_text _
    rw [Node.bareType] at htext ⊢
    rw [Node.verdict, Node.verdict]
    split
    case h_1 => rw [htext]
    case h_2 hkind =>
      rw [show isComposite label.kind = false by rw [hkind]; decide, literalOfType_bareTypes]
    case h_3 hkind =>
      rw [Node.leaves, hkind] at h
      rw [show isComposite label.kind = true by rw [hkind]; decide]
      exact unionVerdict_bareTypes h
    case h_4 hkind =>
      rw [show isComposite label.kind = true by rw [hkind]; decide]
      exact firstVerdict_bareTypes (h.inner hkind)
    case h_5 => rfl

theorem unionVerdict_bareTypes {literalTarget unknown : Bool} : ∀ {cs : List Node},
    NoComment (memberLeaves cs) →
      unionVerdict src l literalTarget unknown (bareTypes true cs) =
        unionVerdict src l literalTarget unknown cs
  | [], _ => rfl
  | c :: cs, h => by
    obtain ⟨hc, hcs⟩ := h.member
    cases hnamed : c.isNamed with
    | false =>
      rw [bareTypes_skip unionVerdict_skip hnamed, unionVerdict_skip hnamed]
      exact unionVerdict_bareTypes hcs
    | true =>
      rw [bareTypes_keep (hc hnamed).isComment, unionVerdict, unionVerdict, Node.bareType_isNamed,
        Node.verdict_bareType (hc hnamed)]
      simp only [unionVerdict_bareTypes hcs]

theorem firstVerdict_bareTypes : ∀ {cs : List Node}, (∀ ns ∈ innerLeaves cs, NoComment ns) →
    firstVerdict src l (bareTypes true cs) = firstVerdict src l cs
  | [], _ => rfl
  | c :: cs, h => by
    obtain ⟨hc, hcs⟩ := NoComment.first h
    cases hnamed : c.isNamed with
    | false =>
      rw [bareTypes_skip firstVerdict_skip hnamed, firstVerdict_skip hnamed]
      exact firstVerdict_bareTypes (hcs hnamed)
    | true =>
      rw [bareTypes_keep (hc hnamed).isComment, firstVerdict, firstVerdict, Node.bareType_isNamed,
        if_pos hnamed, if_pos hnamed, Node.verdict_bareType (hc hnamed)]

end

mutual

/-- Nor do they to how the type is shown. -/
theorem Node.shownType_bareType : ∀ {n : Node}, NoComment n.leaves →
    n.bareType.shownType src = n.shownType src
  | .mk label cs, h => by
    have hcompact : (Node.mk label (bareTypes (isComposite label.kind) cs)).compactText src =
        (Node.mk label cs).compactText src := rfl
    rw [Node.bareType, Node.shownType, Node.shownType, hcompact]
    split
    case h_1 hkind =>
      rw [show isComposite label.kind = false by rw [hkind]; decide, literalOfType_bareTypes]
    case h_2 hkind =>
      rw [Node.leaves, hkind] at h
      rw [show isComposite label.kind = true by rw [hkind]; decide, shownMembers_bareTypes h]
    case h_3 hkind =>
      rw [show isComposite label.kind = true by rw [hkind]; decide,
        shownFirst_bareTypes (h.inner hkind)]
    case h_4 => rfl

theorem shownMembers_bareTypes : ∀ {cs : List Node}, NoComment (memberLeaves cs) →
    shownMembers src (bareTypes true cs) = shownMembers src cs
  | [], _ => rfl
  | c :: cs, h => by
    obtain ⟨hc, hcs⟩ := h.member
    cases hnamed : c.isNamed with
    | false =>
      rw [bareTypes_skip shownMembers_skip hnamed, shownMembers_skip hnamed]
      exact shownMembers_bareTypes hcs
    | true =>
      rw [bareTypes_keep (hc hnamed).isComment, shownMembers, shownMembers, Node.bareType_isNamed,
        Node.shownType_bareType (hc hnamed), shownMembers_bareTypes hcs]

theorem shownFirst_bareTypes : ∀ {cs : List Node}, (∀ ns ∈ innerLeaves cs, NoComment ns) →
    shownFirst src (bareTypes true cs) = shownFirst src cs
  | [], _ => rfl
  | c :: cs, h => by
    obtain ⟨hc, hcs⟩ := NoComment.first h
    cases hnamed : c.isNamed with
    | false =>
      rw [bareTypes_skip shownFirst_skip hnamed, shownFirst_skip hnamed]
      exact shownFirst_bareTypes (hcs hnamed)
    | true =>
      rw [bareTypes_keep (hc hnamed).isComment, shownFirst, shownFirst, Node.bareType_isNamed,
        if_pos hnamed, if_pos hnamed, Node.shownType_bareType (hc hnamed)]

end

/-! ## Values -/

theorem bareValues_eq (cs : List Node) :
    bareValues cs = (cs.filter (!·.isComment)).map Node.bareValue := by
  induction cs with
  | nil => rfl
  | cons c cs ih =>
    rw [bareValues, ih, List.filter_cons]
    cases c.isComment <;> rfl

theorem firstCore_eq (cs : List Node) :
    firstCore cs = (firstNamed? cs).elim none fun c => some c.core :=
  eq_elim_firstNamed? rfl (fun h => by rw [firstCore, if_pos h])
    (fun h => by rw [firstCore, h, if_neg Bool.false_ne_true]) cs

theorem firstLiteral_eq (cs : List Node) :
    firstLiteral src cs = (firstNamed? cs).elim (.ok none) (literalOf src) :=
  eq_elim_firstNamed? rfl (fun h => by rw [firstLiteral, if_pos h])
    (fun h => by rw [firstLiteral, h, if_neg Bool.false_ne_true]) cs

theorem firstNamedType_eq {widen : Bool} (cs : List Node) :
    firstNamedType src widen cs = (firstNamed? cs).elim (.ok "any") (inferType src widen) :=
  eq_elim_firstNamed? rfl (fun h => by rw [firstNamedType, if_pos h])
    (fun h => by rw [firstNamedType, h, if_neg Bool.false_ne_true]) cs

section Parentheses

variable {label : Label} {cs : List Node} {c : Node} {widen : Bool}

theorem core_plain (h : isParentheses label.kind = false) :
    (Node.mk label cs).core = .mk label cs := by
  rw [Node.core, h, if_neg Bool.false_ne_true]

theorem core_wrapped (h : isParentheses label.kind = true) (hc : firstNamed? cs = some c) :
    (Node.mk label cs).core = c.core := by
  rw [Node.core, if_pos h, firstCore_eq, hc]
  rfl

theorem core_comment {n : Node} (h : n.isComment = true) : n.core = n := by
  obtain ⟨label, cs⟩ := n
  have hkind : label.kind = "comment" := beq_iff_eq.mp h
  exact core_plain (by rw [hkind]; decide)

theorem isComment_of_core {n : Node} (h : n.core.isComment = false) : n.isComment = false := by
  cases hn : n.isComment with
  | false => rfl
  | true =>
    rw [core_comment hn] at h
    exact hn.symm.trans h

theorem bareValue_plain (h : isParentheses label.kind = false) :
    (Node.mk label cs).bareValue = .mk label cs := by
  rw [Node.bareValue, h, if_neg Bool.false_ne_true]

@[simp] theorem Node.bareValue_label (n : Node) : n.bareValue.label = n.label := by
  obtain ⟨label, cs⟩ := n
  rw [Node.bareValue]
  split <;> rfl

/-- Parentheses without comments hold the first rule that they held before. -/
theorem firstNamed?_bareValues (hc : ∀ c ∈ firstNamed? cs, c.isComment = false) :
    firstNamed? (bareValues cs) = (firstNamed? cs).map Node.bareValue := by
  rw [bareValues_eq, firstNamed?_map, firstNamed?_filter hc]
  intro n
  rw [Node.isNamed, Node.bareValue_label, Node.isNamed]

theorem literalOf_parentheses (h : isParentheses label.kind = true) :
    literalOf src (.mk label cs) =
      (Node.mk label cs).text src >>= fun _ => firstLiteral src cs := by
  rw [literalOf]
  simp only [isParentheses] at h
  simp only [h, if_true]

theorem inferType_parentheses (h : isParentheses label.kind = true) :
    inferType src widen (.mk label cs) =
      (Node.mk label cs).text src >>= fun _ => firstNamedType src widen cs := by
  rw [inferType, beq_iff_eq.mp h]
  rfl

end Parentheses

/-- Comments behind the expression in parentheses matter neither to its literal nor to its
type. -/
theorem read_bareValue (widen : Bool) {n : Node} (h : n.core.isComment = false) :
    literalOf src n.bareValue = literalOf src n ∧
      inferType src widen n.bareValue = inferType src widen n := by
  induction n using Node.wrapped_induction isParentheses with
  | plain label cs hp =>
    rw [bareValue_plain hp]
    exact ⟨rfl, rfl⟩
  | empty label cs hp hnone =>
    have hbare : firstNamed? (bareValues cs) = none := by
      rw [firstNamed?_bareValues (by simp [hnone]), hnone, Option.map_none]
    rw [Node.bareValue, if_pos hp, literalOf_parentheses hp, literalOf_parentheses hp,
      inferType_parentheses hp, inferType_parentheses hp, firstLiteral_eq, firstLiteral_eq,
      firstNamedType_eq, firstNamedType_eq, hbare, hnone]
    exact ⟨rfl, rfl⟩
  | wrapped label cs c hp hc ih =>
    rw [core_wrapped hp hc] at h
    obtain ⟨hliteral, htype⟩ := ih h
    have hbare : firstNamed? (bareValues cs) = some c.bareValue := by
      rw [firstNamed?_bareValues (by simpa [hc] using isComment_of_core h), hc, Option.map_some]
    rw [Node.bareValue, if_pos hp, literalOf_parentheses hp, literalOf_parentheses hp,
      inferType_parentheses hp, inferType_parentheses hp, firstLiteral_eq, firstLiteral_eq,
      firstNamedType_eq, firstNamedType_eq, hbare, hc, Option.elim_some, Option.elim_some,
      Option.elim_some, Option.elim_some, hliteral, htype]
    exact ⟨rfl, rfl⟩

/-- An expression in parentheses that begin with a comment is no literal, and its type is
not known. -/
theorem read_of_comment (widen : Bool) {n : Node} (hfits : n.Fits src)
    (h : n.core.isComment = true) :
    literalOf src n = .ok none ∧ inferType src widen n = .ok "any" := by
  induction n using Node.wrapped_induction isParentheses with
  | plain label cs hp =>
    rw [core_plain hp] at h
    obtain ⟨text, htext⟩ := Node.text_succeeds hfits
    have hkind : label.kind = "comment" := beq_iff_eq.mp h
    rw [literalOf, inferType, htext, hkind]
    exact ⟨rfl, rfl⟩
  | empty label cs hp hnone =>
    rw [Node.core, if_pos hp, firstCore_eq, hnone] at h
    have hkind : label.kind = "comment" := beq_iff_eq.mp h
    rw [hkind] at hp
    nomatch hp
  | wrapped label cs c hp hc ih =>
    rw [core_wrapped hp hc] at h
    obtain ⟨hliteral, htype⟩ := ih (hfits.children c (firstNamed?_mem hc)) h
    obtain ⟨text, htext⟩ := Node.text_succeeds hfits
    rw [literalOf_parentheses hp, inferType_parentheses hp, htext, firstLiteral_eq,
      firstNamedType_eq, hc, Option.elim_some, Option.elim_some, hliteral, htype]
    exact ⟨rfl, rfl⟩

end HoverTips.Tree
