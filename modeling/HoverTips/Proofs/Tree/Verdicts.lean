import HoverTips.Proofs.Tree.Leaves

/-! # Verdicts and reports

The verdict of a type on a literal is decided by what the leaves of the type say
(`Node.verdict_judged`), and so is how a declaration is reported
(`Declares.reports`). Rearranging a union changes the type that a report repeats and
nothing else (`checkInitializer_by_leaves`). -/

namespace HoverTips.Tree

variable {src : List Char} {l : Literal}

/-! ## Verdicts -/

/-- How the leaves of a type decide its verdict. -/
inductive Judged (l : Literal) (leaves : List Leaf) : Verdict → Prop
  | accepts (h : ∃ leaf ∈ leaves, leaf.Accepts l) : Judged l leaves .accepts
  | refuses (h : ∀ leaf ∈ leaves, leaf.Refuses l) :
      Judged l leaves (.refuses (leaves.any Leaf.isLiteral))
  | unknown (hnone : ∀ leaf ∈ leaves, ¬leaf.Accepts l) (h : ∃ leaf ∈ leaves, ¬leaf.Refuses l) :
      Judged l leaves .unknown

/-- What a union knows after some of its members, none of which accepts. -/
structure Seen (l : Literal) (leaves : List Leaf) (literalTarget unknown : Bool) : Prop where
  none : ∀ leaf ∈ leaves, ¬leaf.Accepts l
  unsettled : unknown = true → ∃ leaf ∈ leaves, ¬leaf.Refuses l
  settled : unknown = false →
    (∀ leaf ∈ leaves, leaf.Refuses l) ∧ literalTarget = leaves.any Leaf.isLiteral

theorem Seen.judged {leaves : List Leaf} {literalTarget unknown : Bool}
    (h : Seen l leaves literalTarget unknown) :
    Judged l leaves (if unknown then .unknown else .refuses literalTarget) := by
  cases unknown with
  | true => exact .unknown h.none (h.unsettled rfl)
  | false =>
    obtain ⟨hall, rfl⟩ := h.settled rfl
    exact .refuses hall

theorem Seen.refuses {seen leaves : List Leaf} {literalTarget unknown : Bool}
    (h : Seen l seen literalTarget unknown) (hall : ∀ leaf ∈ leaves, leaf.Refuses l) :
    Seen l (seen ++ leaves) (literalTarget || leaves.any Leaf.isLiteral) unknown where
  none := List.forall_mem_append.mpr ⟨h.none, fun leaf hleaf => (hall leaf hleaf).not_accepts⟩
  unsettled hu := by
    obtain ⟨leaf, hleaf, hopen⟩ := h.unsettled hu
    exact ⟨leaf, List.mem_append_left _ hleaf, hopen⟩
  settled hu := by
    obtain ⟨hseen, rfl⟩ := h.settled hu
    exact ⟨List.forall_mem_append.mpr ⟨hseen, hall⟩, List.any_append.symm⟩

theorem Seen.unknown {seen leaves : List Leaf} {literalTarget unknown : Bool}
    (h : Seen l seen literalTarget unknown) (hnone : ∀ leaf ∈ leaves, ¬leaf.Accepts l)
    (hopen : ∃ leaf ∈ leaves, ¬leaf.Refuses l) : Seen l (seen ++ leaves) literalTarget true where
  none := List.forall_mem_append.mpr ⟨h.none, hnone⟩
  unsettled _ := by
    obtain ⟨leaf, hleaf, hopen⟩ := hopen
    exact ⟨leaf, List.mem_append_right _ hleaf, hopen⟩
  settled hu := nomatch hu

/-- A type that is no union and no parentheses has the verdict of what it says. -/
theorem judged_leaf (hl : l.base ≠ .null ∧ l.base ≠ .undefined) (leaf : Leaf) :
    Judged l [leaf] (leaf.verdict l) := by
  obtain ⟨hv, ha⟩ | ⟨hv, hr⟩ | ⟨hv, ha, hr⟩ := leaf.verdict_decided hl
  · rw [hv]
    exact .accepts ⟨leaf, by simp, ha⟩
  · rw [hv]
    have h : Judged l [leaf] (.refuses ([leaf].any Leaf.isLiteral)) := .refuses (by simpa using hr)
    simpa using h
  · rw [hv]
    exact .unknown (by simpa using ha) ⟨leaf, by simp, hr⟩

theorem readLeaves_plain {label : Label} {cs : List Node} {leaves : List Leaf}
    (hu : label.kind ≠ "union_type") (hp : label.kind ≠ "parenthesized_type")
    (h : (Node.mk label cs).readLeaves src = .ok leaves) :
    ∃ leaf, (Node.mk label cs).leaf src = .ok leaf ∧ [leaf] = leaves := by
  rw [Node.readLeaves, leaves_plain hu hp] at h
  exact mapM_singleton_eq_ok_iff.mp h

theorem firstVerdict_none {cs : List Node} (h : firstNamed? cs = none) :
    firstVerdict src l cs = .ok .unknown := by
  induction cs with
  | nil => rfl
  | cons c cs ih =>
    rw [firstNamed?, List.find?_eq_none, List.forall_mem_cons] at h
    rw [firstVerdict, if_neg h.1]
    exact ih (List.find?_eq_none.mpr h.2)

mutual

/-- The verdict of a type is decided by its leaves. -/
theorem Node.verdict_judged (hl : l.base ≠ .null ∧ l.base ≠ .undefined) :
    ∀ {type : Node} {leaves : List Leaf}, type.readLeaves src = .ok leaves →
      ∃ v, type.verdict src l = .ok v ∧ Judged l leaves v
  | .mk label cs, leaves, h => by
    rw [Node.verdict]
    split
    case h_1 hkind =>
      obtain ⟨leaf, hleaf, rfl⟩ := readLeaves_plain (by simp [hkind]) (by simp [hkind]) h
      rw [Node.leaf, Node.kind, Node.label, hkind] at hleaf
      obtain ⟨name, hname, rfl⟩ := map_eq_ok_iff.mp hleaf
      exact ⟨_, map_eq_ok_iff.mpr ⟨name, hname, rfl⟩, judged_leaf hl (.primitive name)⟩
    case h_2 hkind =>
      obtain ⟨leaf, hleaf, rfl⟩ := readLeaves_plain (by simp [hkind]) (by simp [hkind]) h
      rw [Node.leaf, Node.kind, Node.label, hkind] at hleaf
      obtain ⟨target, htarget, rfl⟩ := map_eq_ok_iff.mp hleaf
      exact ⟨_, map_eq_ok_iff.mpr ⟨target, htarget, rfl⟩, judged_leaf hl (.literal target)⟩
    case h_3 hkind =>
      rw [Node.readLeaves, Node.leaves, hkind] at h
      have hseen : Seen l [] false false := ⟨nofun, nofun, fun _ => ⟨nofun, rfl⟩⟩
      exact unionVerdict_judged hl hseen h
    case h_4 hkind =>
      rw [Node.readLeaves, Node.leaves, hkind] at h
      cases hinner : innerLeaves cs with
      | some ns =>
        rw [hinner] at h
        exact firstVerdict_judged hl hinner h
      | none =>
        rw [hinner] at h
        obtain ⟨leaf, hleaf, rfl⟩ := mapM_singleton_eq_ok_iff.mp h
        rw [Node.leaf, Node.kind, Node.label, hkind] at hleaf
        obtain rfl : .unmodelled = leaf := Except.ok.inj hleaf
        rw [innerLeaves_eq, Option.map_eq_none_iff] at hinner
        exact ⟨_, firstVerdict_none hinner, judged_leaf hl .unmodelled⟩
    case h_5 hprimitive hliteral hunion hparentheses =>
      obtain ⟨leaf, hleaf, rfl⟩ := readLeaves_plain hunion hparentheses h
      rw [Node.leaf] at hleaf
      split at hleaf
      · contradiction
      · contradiction
      · obtain rfl : .unmodelled = leaf := Except.ok.inj hleaf
        exact ⟨_, rfl, judged_leaf hl .unmodelled⟩

theorem firstVerdict_judged (hl : l.base ≠ .null ∧ l.base ≠ .undefined) :
    ∀ {cs ns : List Node} {leaves : List Leaf}, innerLeaves cs = some ns →
      ns.mapM (·.leaf src) = .ok leaves → ∃ v, firstVerdict src l cs = .ok v ∧ Judged l leaves v
  | [], _, _, hns, _ => nomatch hns
  | c :: cs, ns, leaves, hns, h => by
    rw [innerLeaves] at hns
    rw [firstVerdict]
    split at hns
    · rename_i hnamed
      obtain rfl := Option.some.inj hns
      rw [if_pos hnamed]
      exact Node.verdict_judged hl h
    · rename_i hnamed
      rw [if_neg hnamed]
      exact firstVerdict_judged hl hns h

theorem unionVerdict_judged (hl : l.base ≠ .null ∧ l.base ≠ .undefined) :
    ∀ {cs : List Node} {seen leaves : List Leaf} {literalTarget unknown : Bool},
      Seen l seen literalTarget unknown → (memberLeaves cs).mapM (·.leaf src) = .ok leaves →
        ∃ v, unionVerdict src l literalTarget unknown cs = .ok v ∧ Judged l (seen ++ leaves) v
  | [], seen, leaves, _, _, hseen, h => by
    obtain rfl : [] = leaves := pure_eq_ok_iff.mp h
    exact ⟨_, rfl, by simpa using hseen.judged⟩
  | c :: cs, seen, leaves, literalTarget, unknown, hseen, h => by
    rw [memberLeaves] at h
    rw [unionVerdict]
    split at h
    · rename_i hnamed
      rw [if_pos hnamed]
      obtain ⟨first, rest, hfirst, hrest, rfl⟩ := mapM_append_eq_ok_iff.mp h
      obtain ⟨v, hv, hjudged⟩ := Node.verdict_judged hl hfirst
      rw [hv, ← List.append_assoc]
      cases hjudged with
      | accepts ha =>
        obtain ⟨leaf, hleaf, ha⟩ := ha
        exact ⟨.accepts, rfl, .accepts ⟨leaf, by simp [hleaf], ha⟩⟩
      | refuses hall => exact unionVerdict_judged hl (hseen.refuses hall) hrest
      | unknown hnone hopen => exact unionVerdict_judged hl (hseen.unknown hnone hopen) hrest
    · rename_i hnamed
      rw [if_neg hnamed]
      exact unionVerdict_judged hl hseen h

end

/-- The verdict on a literal, by what the leaves of the type say. -/
structure DecidedByLeaves (l : Literal) (leaves : List Leaf) (v : Verdict) : Prop where
  accepts : v = .accepts ↔ ∃ leaf ∈ leaves, leaf.Accepts l
  refuses : (∃ isLiteral, v = .refuses isLiteral) ↔
    (∀ leaf ∈ leaves, ¬leaf.Accepts l) ∧ ∀ leaf ∈ leaves, leaf.Refuses l
  unknown : v = .unknown ↔
    ¬(∃ leaf ∈ leaves, leaf.Accepts l) ∧ ¬∀ leaf ∈ leaves, leaf.Refuses l
  literalTarget : ∀ isLiteral, v = .refuses isLiteral →
    (isLiteral = true ↔ ∃ leaf ∈ leaves, leaf.isLiteral = true)

theorem Judged.decided {leaves : List Leaf} {v : Verdict} (h : Judged l leaves v) :
    DecidedByLeaves l leaves v := by
  cases h with
  | accepts h =>
    have hrefused : ¬∀ leaf ∈ leaves, leaf.Refuses l := by
      obtain ⟨leaf, hleaf, ha⟩ := h
      exact fun hall => (hall leaf hleaf).not_accepts ha
    exact ⟨⟨fun _ => h, fun _ => rfl⟩, ⟨nofun, fun hall => absurd hall.2 hrefused⟩,
      ⟨nofun, fun hnone => absurd h hnone.1⟩, nofun⟩
  | refuses h =>
    have hnone : ∀ leaf ∈ leaves, ¬leaf.Accepts l := fun leaf hleaf => (h leaf hleaf).not_accepts
    refine ⟨⟨nofun, fun ⟨leaf, hleaf, ha⟩ => absurd ha (hnone leaf hleaf)⟩,
      ⟨fun _ => ⟨hnone, h⟩, fun _ => ⟨_, rfl⟩⟩, ⟨nofun, fun hopen => absurd h hopen.2⟩, ?_⟩
    rintro _ ⟨⟩
    exact List.any_eq_true
  | unknown hnone h =>
    have hrefused : ¬∀ leaf ∈ leaves, leaf.Refuses l := by
      obtain ⟨leaf, hleaf, hopen⟩ := h
      exact fun hall => hopen (hall leaf hleaf)
    have haccepted : ¬∃ leaf ∈ leaves, leaf.Accepts l :=
      fun ⟨leaf, hleaf, ha⟩ => hnone leaf hleaf ha
    exact ⟨⟨nofun, fun ha => absurd ha haccepted⟩, ⟨nofun, fun hall => absurd hall.2 hrefused⟩,
      ⟨fun _ => ⟨haccepted, hrefused⟩, fun _ => rfl⟩, nofun⟩

/-! ## Reports -/

mutual

/-- A type that refuses a literal can be shown. -/
theorem Node.shownType_of_refused : ∀ {type : Node} {leaves : List Leaf},
    type.readLeaves src = .ok leaves → (∀ leaf ∈ leaves, leaf.Refuses l) →
      Succeeds (type.shownType src)
  | .mk label cs, leaves, h, hall => by
    rw [Node.shownType]
    split
    case h_1 hkind =>
      obtain ⟨leaf, hleaf, rfl⟩ := readLeaves_plain (by simp [hkind]) (by simp [hkind]) h
      rw [Node.leaf, Node.kind, Node.label, hkind] at hleaf
      obtain ⟨target, htarget, rfl⟩ := map_eq_ok_iff.mp hleaf
      cases hall (.literal target) (by simp) with
      | literal => exact ⟨_, bind_eq_ok_iff.mpr ⟨_, htarget, rfl⟩⟩
    case h_2 hkind =>
      rw [Node.readLeaves, Node.leaves, hkind] at h
      exact (shownMembers_of_refused h hall).bind fun _ => succeeds_pure _
    case h_3 hkind =>
      rw [Node.readLeaves, Node.leaves, hkind] at h
      cases hinner : innerLeaves cs with
      | some ns =>
        rw [hinner] at h
        obtain ⟨x, hx, hsucceeds⟩ := shownFirst_of_refused hinner h hall
        rw [hx]
        exact hsucceeds.map
      | none =>
        rw [hinner] at h
        obtain ⟨leaf, hleaf, rfl⟩ := mapM_singleton_eq_ok_iff.mp h
        rw [Node.leaf, Node.kind, Node.label, hkind] at hleaf
        obtain rfl : .unmodelled = leaf := Except.ok.inj hleaf
        nomatch hall .unmodelled (by simp)
    case h_4 hliteral hunion hparentheses =>
      obtain ⟨leaf, hleaf, rfl⟩ := readLeaves_plain hunion hparentheses h
      rw [Node.leaf] at hleaf
      split at hleaf
      · obtain ⟨name, hname, _⟩ := map_eq_ok_iff.mp hleaf
        exact ⟨_, map_eq_ok_iff.mpr ⟨name, hname, rfl⟩⟩
      · contradiction
      · obtain rfl : .unmodelled = leaf := Except.ok.inj hleaf
        nomatch hall .unmodelled (by simp)

theorem shownMembers_of_refused : ∀ {cs : List Node} {leaves : List Leaf},
    (memberLeaves cs).mapM (·.leaf src) = .ok leaves → (∀ leaf ∈ leaves, leaf.Refuses l) →
      Succeeds (shownMembers src cs)
  | [], _, _, _ => succeeds_ok []
  | c :: cs, leaves, h, hall => by
    rw [memberLeaves] at h
    rw [shownMembers]
    split at h
    · rename_i hnamed
      rw [if_pos hnamed]
      obtain ⟨first, rest, hfirst, hrest, rfl⟩ := mapM_append_eq_ok_iff.mp h
      obtain ⟨hallFirst, hallRest⟩ := List.forall_mem_append.mp hall
      exact (Node.shownType_of_refused hfirst hallFirst).bind fun _ =>
        (shownMembers_of_refused hrest hallRest).bind fun _ => succeeds_pure _
    · rename_i hnamed
      rw [if_neg hnamed]
      exact shownMembers_of_refused h hall

theorem shownFirst_of_refused : ∀ {cs ns : List Node} {leaves : List Leaf},
    innerLeaves cs = some ns → ns.mapM (·.leaf src) = .ok leaves →
      (∀ leaf ∈ leaves, leaf.Refuses l) → ∃ x, shownFirst src cs = some x ∧ Succeeds x
  | [], _, _, hns, _, _ => nomatch hns
  | c :: cs, ns, leaves, hns, h, hall => by
    rw [innerLeaves] at hns
    rw [shownFirst]
    split at hns
    · rename_i hnamed
      obtain rfl := Option.some.inj hns
      rw [if_pos hnamed]
      exact ⟨_, rfl, Node.shownType_of_refused h hall⟩
    · rename_i hnamed
      rw [if_neg hnamed]
      exact shownFirst_of_refused hns h hall

end

/-- The children `cs` declare a name with a type and a literal for its value. -/
structure Declares (src : List Char) (cs : List Node) (type value : Node) (l : Literal) : Prop where
  annotated : ∃ note, field? "type" cs = some note ∧ firstNamed? note.children = some type
  initialized : field? "value" cs = some value
  literal : literalOf src value = .ok (some l)

/-- How the check reports a declaration: not at all, or with a text that shows the
literal in some way, and the type as it is written. -/
inductive Reports (src : List Char) (cs : List Node) (type value : Node) : Option String → Prop
  | silent (h : checkInitializer src cs = .ok none) : Reports src cs type value none
  | complains {shown shownType : String} (displays : type.shownType src = .ok shownType)
      (h : checkInitializer src cs = .ok (some ⟨value.span,
        "Type '" ++ shown ++ "' is not assignable to type '" ++ shownType ++ "'."⟩)) :
      Reports src cs type value (some shown)

section Reports

variable {cs : List Node} {type value : Node} {leaves : List Leaf}

theorem Declares.checkInitializer_eq (h : Declares src cs type value l) :
    checkInitializer src cs = assignable src type l >>= fun v =>
      match v with
      | .refuses isLiteral => some <$> initializerDiagnostic src type value l isLiteral
      | _ => pure none := by
  obtain ⟨note, hnote, htype⟩ := h.annotated
  rw [checkInitializer, hnote, h.initialized]
  simp only [htype, h.literal]
  rfl

/-- Everything is assignable from `null` and `undefined`. -/
theorem Declares.silent_of_nullish (h : Declares src cs type value l)
    (hl : l.base = .null ∨ l.base = .undefined) : checkInitializer src cs = .ok none := by
  rw [h.checkInitializer_eq, assignable, if_pos hl]
  rfl

theorem assignable_judged (hl : ¬(l.base = .null ∨ l.base = .undefined))
    (hleaves : type.readLeaves src = .ok leaves) :
    ∃ v, assignable src type l = .ok v ∧ Judged l leaves v := by
  rw [assignable, if_neg hl]
  exact Node.verdict_judged (not_or.mp hl) hleaves

theorem Declares.silent_of_accepts (h : Declares src cs type value l)
    (hleaves : type.readLeaves src = .ok leaves) (ha : ∃ leaf ∈ leaves, leaf.Accepts l) :
    checkInitializer src cs = .ok none := by
  by_cases hl : l.base = .null ∨ l.base = .undefined
  · exact h.silent_of_nullish hl
  · obtain ⟨v, hv, hjudged⟩ := assignable_judged hl hleaves
    obtain rfl := hjudged.decided.accepts.mpr ha
    rw [h.checkInitializer_eq, hv]
    rfl

/-- How a report shows a literal that leaves refuse: as a literal type, if one of them
is a literal type, and else by the type that it belongs to. -/
def refusal? (l : Literal) (leaves : List Leaf) : Option String :=
  if l.base = .null ∨ l.base = .undefined then none
  else if ∀ leaf ∈ leaves, leaf.Refuses l then
    some (if ∃ leaf ∈ leaves, leaf.isLiteral = true then l.shown else l.base.name)
  else none

theorem refusal?_congr {leaves' : List Leaf} (h : ∀ leaf, leaf ∈ leaves' ↔ leaf ∈ leaves) :
    refusal? l leaves' = refusal? l leaves := by
  simp only [refusal?, h]

/-- A declaration is reported when every leaf of its type refuses the literal. -/
theorem Declares.reports (h : Declares src cs type value l)
    (hleaves : type.readLeaves src = .ok leaves) :
    Reports src cs type value (refusal? l leaves) := by
  unfold refusal?
  split
  · rename_i hl
    exact .silent (h.silent_of_nullish hl)
  · rename_i hl
    obtain ⟨v, hv, hjudged⟩ := assignable_judged hl hleaves
    have heq := h.checkInitializer_eq
    rw [hv] at heq
    split
    · rename_i hall
      obtain ⟨shownType, hshown⟩ := Node.shownType_of_refused hleaves hall
      obtain ⟨isLiteral, rfl⟩ :=
        hjudged.decided.refuses.mpr ⟨fun leaf hleaf => (hall leaf hleaf).not_accepts, hall⟩
      refine .complains hshown ?_
      rw [heq]
      show some <$> initializerDiagnostic src type value l isLiteral = _
      rw [initializerDiagnostic, hshown]
      simp only [hjudged.decided.literalTarget isLiteral rfl]
      rfl
    · rename_i hopen
      refine .silent ?_
      rw [heq]
      cases hjudged with
      | accepts => rfl
      | refuses hall => exact absurd hall hopen
      | unknown => rfl

end Reports

/-- The verdict on a literal other than `null` and `undefined` is decided by the
leaves of its type: it accepts what one of them accepts, it refuses what all of them
refuse, with word of a literal type if one of them is one, and it is not known
otherwise. A report says how the literal is shown and repeats the type as it is
written. But for the type, two declarations of one literal are reported alike when
their types have the same leaves, also in different blocks, and so when their types
differ only in the order, the grouping, the repetition or the parentheses of the
members of unions. A member that accepts the literal silences a union, and `null` and
`undefined` are never reported. -/
theorem checkInitializer_by_leaves {cs : List Node} {type value : Node} {leaves : List Leaf}
    (h : Declares src cs type value l) (hleaves : type.readLeaves src = .ok leaves) :
    (¬(l.base = .null ∨ l.base = .undefined) →
      ∃ v, assignable src type l = .ok v ∧ DecidedByLeaves l leaves v) ∧
    Reports src cs type value (refusal? l leaves) ∧
    (∀ {src' : List Char} {cs' : List Node} {type' value' : Node} {leaves' : List Leaf},
      Declares src' cs' type' value' l → type'.readLeaves src' = .ok leaves' →
        (∀ leaf, leaf ∈ leaves' ↔ leaf ∈ leaves) →
          Reports src' cs' type' value' (refusal? l leaves)) ∧
    (∀ {cs' : List Node} {type' value' : Node}, Declares src cs' type' value' l →
      Regrouped type type' → Reports src cs' type' value' (refusal? l leaves)) ∧
    (∀ {label : Label} {members : List Node}, type = .mk label members →
      label.kind = "union_type" → ∀ c ∈ named members, assignable src c l = .ok .accepts →
        checkInitializer src cs = .ok none) ∧
    (l.base = .null ∨ l.base = .undefined → checkInitializer src cs = .ok none) := by
  refine ⟨fun hl => ?_, h.reports hleaves, fun h' hleaves' hsame => ?_, fun h' hgroup => ?_,
    fun htype hunion c hc hv => ?_, h.silent_of_nullish⟩
  · obtain ⟨v, hv, hjudged⟩ := assignable_judged hl hleaves
    exact ⟨v, hv, hjudged.decided⟩
  · rw [← refusal?_congr hsame]
    exact h'.reports hleaves'
  · obtain ⟨leaves', hleaves', hsame⟩ := hgroup.readLeaves hleaves
    rw [← refusal?_congr hsame]
    exact h'.reports hleaves'
  · by_cases hl : l.base = .null ∨ l.base = .undefined
    · exact h.silent_of_nullish hl
    · have hmem : ∀ n ∈ c.leaves, n ∈ type.leaves := fun n hn => by
        rw [htype]
        exact (mem_leaves_union hunion).mpr ⟨c, hc, hn⟩
      obtain ⟨own, hown⟩ : Succeeds (c.readLeaves src) :=
        succeeds_mapM fun n hn => ok_of_mapM hleaves (hmem n hn)
      obtain ⟨v, hv', hjudged⟩ := assignable_judged hl hown
      obtain rfl := Except.ok.inj (hv'.symm.trans hv)
      obtain ⟨leaf, hleaf, ha⟩ := hjudged.decided.accepts.mp rfl
      obtain ⟨n, hn, hread⟩ := (mem_mapM_iff hown).mp hleaf
      exact h.silent_of_accepts hleaves
        ⟨leaf, (mem_mapM_iff hleaves).mpr ⟨n, hmem n hn, hread⟩, ha⟩

/-- A declaration with a type at byte 6 and a string for its value at byte 19. -/
def stringDeclaration (type : Node) : List Node :=
  [.mk ⟨"type_annotation", true, false, false, ⟨6, 18⟩, ["type"]⟩ [type],
    .mk ⟨"string", true, false, false, ⟨19, 22⟩, ["value"]⟩ []]

/-- The literal types of `let é:'a'|('b'|1)="c"`. -/
def literalTypes : List Node :=
  [.mk ⟨"literal_type", true, false, false, ⟨7, 10⟩, []⟩
      [.mk ⟨"string", true, false, false, ⟨7, 10⟩, []⟩ []],
    .mk ⟨"literal_type", true, false, false, ⟨12, 15⟩, []⟩
      [.mk ⟨"string", true, false, false, ⟨12, 15⟩, []⟩ []],
    .mk ⟨"literal_type", true, false, false, ⟨16, 17⟩, []⟩
      [.mk ⟨"number", true, false, false, ⟨16, 17⟩, []⟩ []]]

/-- `'a'|('b'|1)` -/
def nestedUnion : Node :=
  .mk ⟨"union_type", true, false, false, ⟨7, 18⟩, []⟩
    (literalTypes.take 1 ++
      [.mk ⟨"parenthesized_type", true, false, false, ⟨11, 18⟩, []⟩
        [.mk ⟨"union_type", true, false, false, ⟨12, 17⟩, []⟩ (literalTypes.drop 1)]])

/-- The same members in one union, the last one first and twice. -/
def flatUnion : Node :=
  .mk ⟨"union_type", true, false, false, ⟨7, 18⟩, []⟩ (literalTypes.drop 2 ++ literalTypes.reverse)

theorem nestedUnion_regrouped : Regrouped nestedUnion flatUnion := by
  let union : Label := ⟨"union_type", true, false, false, ⟨7, 18⟩, []⟩
  let inner : Node := .mk ⟨"union_type", true, false, false, ⟨12, 17⟩, []⟩ (literalTypes.drop 1)
  have hbare : Regrouped nestedUnion (.mk union (literalTypes.take 1 ++ [inner])) :=
    .member rfl rfl (show _ = literalTypes.take 1 ++ [_] from rfl)
      (show _ = literalTypes.take 1 ++ [inner] from rfl) (.parentheses rfl rfl)
  have hflat : Regrouped (.mk union (literalTypes.take 1 ++ [inner])) (.mk union literalTypes) :=
    .grouping rfl rfl rfl (show _ = literalTypes.take 1 ++ [inner] from rfl) rfl
  have hreversed : Regrouped (.mk union literalTypes) (.mk union literalTypes.reverse) :=
    .order rfl rfl (List.reverse_perm literalTypes).symm
  have htwice : Regrouped (.mk union literalTypes.reverse) flatUnion :=
    .repetition rfl rfl List.mem_cons_self rfl
  exact hbare.trans (hflat.trans (hreversed.trans htwice))

/-- Both types refuse the string, which is shown as a literal type. -/
theorem checkInitializer_by_leaves_regrouped :
    let src := "let é:'a'|('b'|1)=\"c\"".toList
    let value : Node := .mk ⟨"string", true, false, false, ⟨19, 22⟩, ["value"]⟩ []
    Declares src (stringDeclaration nestedUnion) nestedUnion value ⟨.string, "\"c\""⟩ ∧
      Regrouped nestedUnion flatUnion ∧
      Reports src (stringDeclaration nestedUnion) nestedUnion value (some "\"c\"") ∧
      Reports src (stringDeclaration flatUnion) flatUnion value (some "\"c\"") := by
  intro src value
  have hdeclares : ∀ type : Node, type.isNamed = true →
      Declares src (stringDeclaration type) type value ⟨.string, "\"c\""⟩ := fun type htype =>
    ⟨⟨_, rfl, List.find?_cons_of_pos htype⟩, rfl, rfl⟩
  have hleaves : nestedUnion.readLeaves src = .ok [.literal (some ⟨.string, "'a'"⟩),
      .literal (some ⟨.string, "'b'"⟩), .literal (some ⟨.number, "1"⟩)] := by rfl
  have hshown : refusal? ⟨.string, "\"c\""⟩ [.literal (some ⟨.string, "'a'"⟩),
      .literal (some ⟨.string, "'b'"⟩), .literal (some ⟨.number, "1"⟩)] = some "\"c\"" := by
    decide +kernel
  obtain ⟨-, hreports, -, hregrouped, -⟩ :=
    checkInitializer_by_leaves (hdeclares nestedUnion rfl) hleaves
  rw [hshown] at hreports
  have hflat := hregrouped (hdeclares flatUnion rfl) nestedUnion_regrouped
  rw [hshown] at hflat
  exact ⟨hdeclares nestedUnion rfl, nestedUnion_regrouped, hreports, hflat⟩

/-- `'a'` at byte 26 as the value of a declaration with a union of two types. -/
def letterDeclaration (union : Node) : List Node :=
  [.mk ⟨"type_annotation", true, false, false, ⟨5, 23⟩, ["type"]⟩ [union],
    .mk ⟨"string", true, false, false, ⟨26, 29⟩, ["value"]⟩ []]

/-- A union of two types at byte 7. -/
def unionOfTwo (bar : Nat) : Node :=
  .mk ⟨"union_type", true, false, false, ⟨7, 23⟩, []⟩
    [.mk ⟨"predefined_type", true, false, false, ⟨7, bar - 1⟩, []⟩ [],
      .mk ⟨"|", false, false, false, ⟨bar, bar + 1⟩, []⟩ [],
      .mk ⟨"predefined_type", true, false, false, ⟨bar + 2, 23⟩, []⟩ []]

/-- The order of the members shows in the type that a report repeats. -/
theorem checkInitializer_by_leaves_written :
    let src := "let x: number | boolean = 'a'".toList
    let src' := "let x: boolean | number = 'a'".toList
    (unionOfTwo 14).readLeaves src = .ok [.primitive "number", .primitive "boolean"] ∧
      (unionOfTwo 15).readLeaves src' = .ok [.primitive "boolean", .primitive "number"] ∧
      (checkInitializer src (letterDeclaration (unionOfTwo 14))).toOption = some (some
        ⟨⟨26, 29⟩, "Type 'string' is not assignable to type 'number | boolean'."⟩) ∧
      (checkInitializer src' (letterDeclaration (unionOfTwo 15))).toOption = some (some
        ⟨⟨26, 29⟩, "Type 'string' is not assignable to type 'boolean | number'."⟩) := by
  intro src src'
  exact ⟨rfl, rfl, by decide +kernel, by decide +kernel⟩

end HoverTips.Tree
