import HoverTips.Proofs.Tree.Bare
import HoverTips.Proofs.Tree.Findings
import HoverTips.Proofs.Tree.Verdicts

/-! # Comments in declarations

A comment among the leaves of a declared type, or before an initializer in
parentheses, keeps the declaration from being reported, and labels show it for the
type. Comments elsewhere can be left out (`comments_seen`). -/

namespace HoverTips.Tree

variable {src : List Char}

mutual

/-- What holds throughout a type holds throughout its leaves. -/
theorem Node.All.leaves {p : Label → Prop} : ∀ {n : Node}, n.All p → ∀ m ∈ n.leaves, m.All p
  | .mk label cs, h => by
    rw [Node.leaves]
    split
    · exact allNodes_memberLeaves h.2
    · cases hinner : innerLeaves cs with
      | none => exact fun m hm => List.mem_singleton.mp hm ▸ h
      | some ns => exact allNodes_innerLeaves h.2 hinner
    · exact fun m hm => List.mem_singleton.mp hm ▸ h

theorem allNodes_memberLeaves {p : Label → Prop} : ∀ {cs : List Node}, allNodes p cs →
    ∀ m ∈ memberLeaves cs, m.All p
  | [], _ => nofun
  | c :: cs, h => by
    rw [memberLeaves]
    split
    · exact List.forall_mem_append.mpr ⟨h.1.leaves, allNodes_memberLeaves h.2⟩
    · exact allNodes_memberLeaves h.2

theorem allNodes_innerLeaves {p : Label → Prop} : ∀ {cs ns : List Node}, allNodes p cs →
    innerLeaves cs = some ns → ∀ m ∈ ns, m.All p
  | [], _, _, hns => nomatch hns
  | c :: cs, ns, h, hns => by
    rw [innerLeaves] at hns
    split at hns
    · rw [← Option.some.inj hns]
      exact h.1.leaves
    · exact allNodes_innerLeaves h.2 hns

end

theorem Node.leaf_succeeds {n : Node} (h : n.Fits src) : Succeeds (n.leaf src) := by
  unfold Node.leaf
  split
  · exact (Node.text_succeeds h).map
  · exact (literalOfType_succeeds h.children).map
  · exact succeeds_ok _

theorem Node.readLeaves_succeeds {type : Node} (h : type.Fits src) :
    Succeeds (type.readLeaves src) :=
  succeeds_mapM fun n hn => Node.leaf_succeeds (h.leaves n hn)

theorem leaf_comment {n : Node} (h : n.isComment = true) : n.leaf src = .ok .unmodelled := by
  rw [Node.leaf, beq_iff_eq.mp h]
  rfl

/-- The first rule of an annotation stays the first one, unless it is a comment. -/
theorem firstNamed?_bareNote {note : Node}
    (h : ∀ c ∈ firstNamed? note.children, c.isComment = false) :
    firstNamed? note.bareNote.children = (firstNamed? note.children).map Node.bareType := by
  obtain ⟨label, cs⟩ := note
  have hcs : ∀ c ∈ firstNamed? cs, c.isComment = false := h
  show firstNamed? (bareTypes true cs) = (firstNamed? cs).map Node.bareType
  rw [bareTypes_true, firstNamed?_map Node.bareType_isNamed, firstNamed?_filter hcs]

@[simp] theorem Node.bareNote_label (note : Node) : note.bareNote.label = note.label := by
  cases note
  rfl

theorem annotationText_bareNote {note : Node}
    (h : ∀ c ∈ firstNamed? note.children, c.isComment = false) :
    annotationText src note.bareNote = annotationText src note := by
  rw [annotationText, annotationText, firstNamed?_bareNote h]
  cases firstNamed? note.children with
  | none => simp only [Option.map_none, Node.text, Node.span, Node.bareNote_label]
  | some type => simp only [Option.map_some, Node.compactText, Node.bareType_text]

/-- The children of a declaration with a comment among the leaves of its type. -/
def HidesType (cs : List Node) : Prop :=
  ∃ note type n, field? "type" cs = some note ∧ firstNamed? note.children = some type ∧
    n ∈ type.leaves ∧ n.isComment = true

/-- The children of a declaration with a comment for the core of its value. -/
def HidesValue (cs : List Node) : Prop :=
  ∃ value, field? "value" cs = some value ∧ value.core.isComment = true

/-- `cs'` has the type and the value of `cs` without comments around single types and in
parentheses. -/
structure Uncommented (cs cs' : List Node) : Prop where
  type : field? "type" cs' = (field? "type" cs).map Node.bareNote
  value : field? "value" cs' = (field? "value" cs).map Node.bareValue

section Declarations

variable {cs cs' : List Node}

/-- A comment among the leaves is a type that is not known. -/
theorem HidesType.silent (h : HidesType cs) (hfits : ∀ c ∈ cs, c.Fits src) :
    checkInitializer src cs = .ok none := by
  obtain ⟨note, type, n, hnote, htype, hn, hcomment⟩ := h
  have hfitsType : type.Fits src :=
    (hfits note (field?_mem hnote)).children type (firstNamed?_mem htype)
  cases hvalue : field? "value" cs with
  | none => rw [checkInitializer, hnote, hvalue]
  | some value =>
    obtain ⟨literal?, hliteral⟩ := literalOf_succeeds (hfits value (field?_mem hvalue))
    cases literal? with
    | none =>
      rw [checkInitializer, hnote, hvalue]
      simp only [htype, hliteral]
      rfl
    | some l =>
      have hdeclares : Declares src cs type value l := ⟨⟨note, hnote, htype⟩, hvalue, hliteral⟩
      obtain ⟨leaves, hleaves⟩ := Node.readLeaves_succeeds hfitsType
      have hunmodelled : .unmodelled ∈ leaves :=
        (mem_mapM_iff hleaves).mpr ⟨n, hn, leaf_comment hcomment⟩
      have hnone : refusal? l leaves = none := by
        rw [refusal?]
        split
        · rfl
        · refine if_neg fun hall => ?_
          cases hall .unmodelled hunmodelled
      have hreports := hdeclares.reports hleaves
      rw [hnone] at hreports
      cases hreports with
      | silent h => exact h

theorem HidesValue.silent (h : HidesValue cs) (hfits : ∀ c ∈ cs, c.Fits src) :
    checkInitializer src cs = .ok none := by
  obtain ⟨value, hvalue, hcomment⟩ := h
  obtain ⟨hliteral, -⟩ :=
    read_of_comment false (hfits value (field?_mem hvalue)) hcomment
  rw [checkInitializer, hvalue]
  cases field? "type" cs with
  | none => rfl
  | some note =>
    simp only [hliteral]
    cases firstNamed? note.children with
    | none => rfl
    | some type => rfl

/-- Without comments the declaration is checked as before, if no comment hides a part. -/
theorem Uncommented.checkInitializer_eq (h : Uncommented cs cs') (htype : ¬HidesType cs)
    (hvalue : ¬HidesValue cs) : checkInitializer src cs' = checkInitializer src cs := by
  rw [checkInitializer, checkInitializer, h.type, h.value]
  cases hnote : field? "type" cs with
  | none => rfl
  | some note =>
    cases hv : field? "value" cs with
    | none => rfl
    | some value =>
      have hcore : value.core.isComment = false :=
        Bool.eq_false_iff.mpr fun hc => hvalue ⟨value, hv, hc⟩
      have hleaves : ∀ type ∈ firstNamed? note.children, NoComment type.leaves :=
        fun type hfirst n hn =>
          Bool.eq_false_iff.mpr fun hc => htype ⟨note, type, n, hnote, hfirst, hn, hc⟩
      have hfirst : firstNamed? note.bareNote.children =
          (firstNamed? note.children).map Node.bareType :=
        firstNamed?_bareNote fun type hfirst => (hleaves type hfirst).isComment
      simp only [Option.map_some, hfirst, (read_bareValue false hcore).1]
      cases hdeclared : firstNamed? note.children with
      | none => rfl
      | some type =>
        have hclear := hleaves type hdeclared
        simp only [Option.map_some, assignable, Node.verdict_bareType hclear, initializerDiagnostic,
          Node.shownType_bareType hclear, Node.span, Node.bareValue_label]

/-- A comment is seen where the check and the labels look for a type or for a value:
among the leaves of the declared type, as the first rule of an annotation, and as the
first rule of parentheses around the initializer. A comment among the leaves or before
the initializer keeps a declaration from being reported, a comment at the front of an
annotation is shown for its type, and the type of an initializer behind a comment is
`any`. All other comments right below annotations, unions and parentheses can be left
out, and the check and the types stay the same. -/
theorem comments_seen (h : Uncommented cs cs') (hfits : ∀ c ∈ cs, c.Fits src) :
    (¬HidesType cs → ¬HidesValue cs → checkInitializer src cs' = checkInitializer src cs) ∧
      (HidesType cs ∨ HidesValue cs → checkInitializer src cs = .ok none) ∧
      (∀ note ∈ field? "type" cs,
        ((∀ c ∈ firstNamed? note.children, c.isComment = false) →
          annotationText src note.bareNote = annotationText src note) ∧
        (∀ c ∈ firstNamed? note.children, c.isComment = true →
          annotationText src note = c.compactText src)) ∧
      (∀ value ∈ field? "value" cs, ∀ widen : Bool,
        (value.core.isComment = false →
          inferType src widen value.bareValue = inferType src widen value) ∧
        (value.core.isComment = true → inferType src widen value = .ok "any")) := by
  refine ⟨h.checkInitializer_eq, fun hhidden => hhidden.elim (·.silent hfits) (·.silent hfits),
    fun note _ => ⟨annotationText_bareNote, fun c hc _ => ?_⟩,
    fun value hvalue widen => ⟨fun hplain => (read_bareValue widen hplain).2, fun hcomment => ?_⟩⟩
  · rw [annotationText, hc]
  · exact (read_of_comment widen (hfits value (field?_mem hvalue)) hcomment).2

end Declarations

/-- The note at byte 7 of a declaration whose value is a string at byte 26. -/
def commentNote (rules : List Node) : Node :=
  .mk ⟨"type_annotation", true, false, false, ⟨7, 23⟩, ["type"]⟩
    (.mk ⟨":", false, false, false, ⟨7, 8⟩, []⟩ [] :: rules)

def commentedDeclaration (rules : List Node) : List Node :=
  [commentNote rules, .mk ⟨"string", true, false, false, ⟨26, 29⟩, ["value"]⟩ []]

def numberAt (start : Nat) : Node :=
  .mk ⟨"predefined_type", true, false, false, ⟨start, start + 6⟩, []⟩ []

def commentAt (start : Nat) : Node :=
  .mk ⟨"comment", true, false, false, ⟨start, start + 7⟩, []⟩ []

/-- Behind the type a comment can be left out. -/
theorem comments_seen_behind :
    let src := "const x: number /* c */ = 'a'".toList
    let cs := commentedDeclaration [numberAt 9, commentAt 16]
    let cs' := commentedDeclaration [numberAt 9]
    (∀ c ∈ cs, c.Fits src) ∧ Uncommented cs cs' ∧ ¬HidesType cs ∧ ¬HidesValue cs ∧
      checkInitializer src cs' = checkInitializer src cs := by
  intro src cs cs'
  have hall : allNodes (Label.Fits src) cs := by
    simp only [cs, commentedDeclaration, commentNote, numberAt, commentAt, allNodes, Node.All]
    decide
  have hfits : ∀ c ∈ cs, c.Fits src := allNodes_iff.mp hall
  have huncommented : Uncommented cs cs' := ⟨rfl, rfl⟩
  have htype : ¬HidesType cs := by
    rintro ⟨note, type, n, hnote, hfirst, hn, hcomment⟩
    obtain rfl : commentNote [numberAt 9, commentAt 16] = note := Option.some.inj hnote
    obtain rfl : numberAt 9 = type := Option.some.inj hfirst
    obtain rfl := List.mem_singleton.mp hn
    exact absurd hcomment (by decide)
  have hvalue : ¬HidesValue cs := by
    rintro ⟨value, hvalue, hcomment⟩
    obtain rfl := Option.some.inj hvalue
    exact absurd hcomment (by decide)
  exact ⟨hfits, huncommented, htype, hvalue, (comments_seen huncommented hfits).1 htype hvalue⟩

/-- In front of the type it hides the type from the check, and is shown in its place. -/
theorem comments_seen_before :
    let src := "const x: /* c */ number = 'a'".toList
    let cs := commentedDeclaration [commentAt 9, numberAt 17]
    let cs' := commentedDeclaration [numberAt 17]
    Uncommented cs cs' ∧
      (checkInitializer src cs).toOption = some none ∧
      (checkInitializer src cs').toOption =
        some (some ⟨⟨26, 29⟩, "Type 'string' is not assignable to type 'number'."⟩) ∧
      (annotationText src (commentNote [commentAt 9, numberAt 17])).toOption = some "/* c */" ∧
      (annotationText src (commentNote [numberAt 17])).toOption = some "number" := by
  intro src cs cs'
  refine ⟨⟨rfl, rfl⟩, ?_⟩
  decide +kernel

end HoverTips.Tree
