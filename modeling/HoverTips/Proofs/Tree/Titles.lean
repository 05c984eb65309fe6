import HoverTips.Proofs.Tree.Lines
import HoverTips.Proofs.Tree.Members

/-! # Titles on one line

The title of a token is meant to be one line, however the declaration behind it is
written. The first line of an outline is one. The line about a name is one, too, if the
declaration has no method of an object literal and no literal of a constant that is written
over several lines (`titles_on_one_line`): those are shown as they are written. -/

namespace HoverTips.Tree

open Text (OneLine)

variable {src : List Char} {cs : List Node} {name : String}

/-! ## Words -/

theorem modifiers_oneLine : Ensures (∀ word ∈ ·, OneLine word) (modifiers src cs) := by
  refine ensures_foldr ensures_nil fun child _ later hlater => ?_
  have hkept : OneLine child.kind → Ensures (∀ word ∈ ·, OneLine word)
      (if child.isNamed then later else (child.kind :: ·) <$> later) := fun hkind =>
    ensures_ite (fun _ => hlater) fun _ => hlater.map fun _ h => List.forall_mem_cons.mpr ⟨hkind, h⟩
  split
  iterate 2
    exact compactText_oneLine.bind fun _ hword => hlater.bind fun _ h =>
      ensures_pure (List.forall_mem_cons.mpr ⟨hword, h⟩)
  iterate 7
    rename_i hk
    exact hkept (by rw [hk]; decide)
  exact hlater

theorem oneLine_spaced {words : List String} (h : ∀ word ∈ words, OneLine word) :
    OneLine (String.join (words.map (· ++ " "))) :=
  Text.oneLine_join (List.forall_mem_map.mpr fun word hword => (h word hword).append (by decide))

theorem modifierText_oneLine : Ensures OneLine (modifierText src cs) :=
  modifiers_oneLine.map fun _ => oneLine_spaced

theorem declarationModifiers_oneLine {parent? : Option Node} :
    ∀ word ∈ declarationModifiers parent? cs, OneLine word := by
  have habstract : ∀ outer : List String, (∀ word ∈ outer, OneLine word) →
      ∀ word ∈ if hasKind "abstract" cs then outer ++ ["abstract"] else outer, OneLine word := by
    intro outer h
    split
    · exact List.forall_mem_append.mpr ⟨h, List.forall_mem_singleton.mpr (by decide)⟩
    · exact h
  refine habstract _ ?_
  split
  · decide
  · split
    · split <;> decide
    · decide
    · decide

theorem variableKeyword_oneLine (declaration? : Option Node) :
    OneLine (variableKeyword declaration?) := by
  unfold variableKeyword
  split
  · decide
  · split
    · decide
    · split
      · split <;> decide
      · decide

/-! ## Outlines of types -/

theorem glueArguments_oneLine {arguments : String} (ha : OneLine arguments) :
    ∀ {types : List String}, (∀ type ∈ types, OneLine type) →
      ∀ type ∈ glueArguments arguments types, OneLine type
  | [], _ => List.forall_mem_singleton.mpr ha
  | [_], h => List.forall_mem_singleton.mpr ((h _ (by simp)).append ha)
  | _ :: _ :: _, h => by
    rw [List.forall_mem_cons] at h
    exact List.forall_mem_cons.mpr ⟨h.1, glueArguments_oneLine ha h.2⟩

theorem heritageTypes_oneLine {clause : Node} :
    Ensures (∀ type ∈ ·, OneLine type) (heritageTypes src clause) := by
  refine ensures_foldlM (List.forall_mem_nil _) fun types htypes child _ => ?_
  refine compactText_oneLine.bind fun text htext => ?_
  split
  · exact ensures_pure (glueArguments_oneLine htext htypes)
  · exact ensures_pure htypes
  · exact ensures_pure (List.forall_mem_append.mpr ⟨htypes, List.forall_mem_singleton.mpr htext⟩)

theorem clauseTypes_oneLine {kind : String} :
    Ensures (∀ type ∈ ·, OneLine type) (clauseTypes src kind cs) :=
  (ensures_mapM fun _ _ => heritageTypes_oneLine).map fun _ h type htype => by
    obtain ⟨types, htypes, hmem⟩ := List.mem_flatten.mp htype
    exact h types htypes type hmem

theorem typeParameters_oneLine : Ensures (∀ type ∈ ·, OneLine type) (typeParameters src cs) := by
  unfold typeParameters
  split
  · exact ensures_mapM fun _ _ => compactText_oneLine
  · exact ensures_nil

/-- The parts of an outline that its first line shows are on one line. -/
structure HeaderOnOneLine (s : TypeSignature) : Prop where
  name : OneLine s.name
  modifiers : ∀ word ∈ s.modifiers, OneLine word
  typeParameters : ∀ type ∈ s.typeParameters, OneLine type
  parents : ∀ type ∈ s.parents, OneLine type
  interfaces : ∀ type ∈ s.interfaces, OneLine type
  aliased : ∀ type ∈ s.aliased, OneLine type

theorem clause_oneLine {word : String} {items : List String} (hword : OneLine word)
    (h : ∀ item ∈ items, OneLine item) : OneLine (TypeSignature.clause word items) := by
  unfold TypeSignature.clause
  split
  · decide
  · exact hword.append (Text.oneLine_intercalate (by decide) h)

theorem HeaderOnOneLine.header {s : TypeSignature} (h : HeaderOnOneLine s) : OneLine s.header := by
  have hkeyword : OneLine s.kind.keyword := by cases s.kind <;> decide
  have htypes : OneLine (", ".intercalate s.typeParameters) :=
    Text.oneLine_intercalate (by decide) h.typeParameters
  refine OneLine.append ?_ ?_
  · simp +decide [oneLine_spaced h.modifiers, hkeyword, h.name, htypes]
  split
  · rename_i target htarget
    exact OneLine.append (by decide) (h.aliased target htarget)
  · exact (clause_oneLine (by decide) h.parents).append (clause_oneLine (by decide) h.interfaces)

/-- The first line of an outline is one if the name in it is. -/
theorem signatureOf_oneLine {parent? : Option Node} {declaration : Node}
    (hname : ∀ name ∈ field? "name" declaration.children, name.OnOneLine src) :
    Ensures (∀ s ∈ ·, OneLine s.header) (signatureOf src parent? declaration) := by
  unfold signatureOf
  split
  · rename_i kind node _ hnode
    refine (hname node hnode).bind fun name hname =>
      typeParameters_oneLine.bind fun types htypes => ?_
    have hwords := @declarationModifiers_oneLine declaration.children parent?
    cases kind with
    | interface =>
      exact clauseTypes_oneLine.bind fun parents hparents => ensures_bind fun _ =>
        ensures_some (HeaderOnOneLine.header
          { name := hname, modifiers := hwords, typeParameters := htypes, parents := hparents,
            interfaces := by simp, aliased := by simp })
    | classType =>
      exact clauseTypes_oneLine.bind fun parents hparents =>
        clauseTypes_oneLine.bind fun interfaces hinterfaces => ensures_bind fun _ =>
          ensures_some (HeaderOnOneLine.header
            { name := hname, modifiers := hwords, typeParameters := htypes, parents := hparents,
              interfaces := hinterfaces, aliased := by simp })
    | typeAlias =>
      dsimp only
      split
      · exact compactText_oneLine.bind fun target htarget =>
          ensures_some (HeaderOnOneLine.header
            { name := hname, modifiers := hwords, typeParameters := htypes, parents := by simp,
              interfaces := by simp, aliased := by simpa using htarget })
      · exact ensures_some (HeaderOnOneLine.header
          { name := hname, modifiers := hwords, typeParameters := htypes, parents := by simp,
            interfaces := by simp, aliased := by simp })
  · exact ensures_none

/-! ## Lines about names -/

theorem variableLabel_oneLine {declaration? : Option Node} {declarator : Node}
    (hname : OneLine name) (hn : declarator.Named src) (h : PlainTypes src declarator.children)
    (hconstant : variableKeyword declaration? = "const" →
      PlainInitializer src declarator.children) :
    Ensures OneLine (variableLabel src declaration? declarator name) := by
  refine (declaredType_oneLine _ hn.children h fun hkept => hconstant (by simpa using hkept)).bind
    fun type htype => ensures_pure ?_
  simp +decide [variableKeyword_oneLine, hname, htype]

theorem parameterLabel_oneLine {parameter : Node} (hname : OneLine name)
    (hn : parameter.Named src) (h : PlainTypes src parameter.children) :
    Ensures OneLine (parameterLabel src parameter name) := by
  unfold parameterLabel
  refine (declaredType_oneLine true hn.children h (by simp)).bind fun type htype => ?_
  cases field? "value" parameter.children with
  | some value =>
    have hdefault : Ensures OneLine ((" = " ++ ·) <$> value.compactText src) :=
      compactText_oneLine.map fun _ htext => OneLine.append (by decide) htext
    exact hdefault.bind fun default hdefault =>
      ensures_pure (by simp +decide [hname, htype, hdefault])
  | none => exact ensures_pure (by simp +decide [hname, htype])

theorem propertyLabel_oneLine {member : Node} (hname : OneLine name) (hn : member.Named src)
    (h : PlainTypes src member.children) : Ensures OneLine (propertyLabel src member name) := by
  refine modifierText_oneLine.bind fun words hwords =>
    (declaredType_oneLine true hn.children h (by simp)).bind fun type htype => ensures_pure ?_
  simp +decide [hwords, hname, htype]

theorem functionLabel_oneLine {declaration : Node} (hname : OneLine name)
    (hn : declaration.Named src) (h : PlainTypes src declaration.children) :
    Ensures OneLine (functionLabel src declaration name) :=
  (callableTail_oneLine hn.children h).map fun _ htail =>
    (OneLine.append (by decide) hname).append htail

theorem methodLabel_oneLine {member : Node} (hname : OneLine name) (hn : member.Named src)
    (h : PlainTypes src member.children) : Ensures OneLine (methodLabel src member name) :=
  (callableTail_oneLine hn.children h).map fun _ htail =>
    (OneLine.append (by decide) hname).append htail

/-- If the node declares a constant, the literal that it is set to is on one line. -/
def Visit.PlainConstant (src : List Char) (v : Visit) : Prop :=
  v.node.kind = "variable_declarator" → variableKeyword v.parent? = "const" →
    PlainInitializer src v.node.children

instance : DecidablePred (Visit.PlainConstant src) := fun v =>
  inferInstanceAs (Decidable (v.node.kind = "variable_declarator" → _ → _))

theorem lineAbout_oneLine {parent node : Node} {outer : List Node} (hname : OneLine name)
    (hn : parent.Named src) (h : PlainTypes src parent.children)
    (hconstant : Visit.PlainConstant src ⟨parent, outer⟩) :
    Ensures (∀ line ∈ ·, OneLine line) (lineAbout src outer.head? parent node name) := by
  have hline : ∀ {c : Prop} [Decidable c] {line : Reading String}, Ensures OneLine line →
      Ensures (∀ line ∈ ·, OneLine line) (if c then some <$> line else .ok none) := by
    intro c _ line hline
    exact ensures_ite (fun _ => hline.map_some fun _ h => h) fun _ => ensures_none
  unfold lineAbout
  split
  · rename_i hk
    exact hline (variableLabel_oneLine hname hn h (hconstant hk))
  iterate 2 exact hline (parameterLabel_oneLine hname hn h)
  · exact hline (ensures_ok ((OneLine.append (by decide) hname).append (by decide)))
  iterate 2 exact hline (propertyLabel_oneLine hname hn h)
  iterate 3 exact hline (functionLabel_oneLine hname hn h)
  iterate 3 exact hline (methodLabel_oneLine hname hn h)
  · exact ensures_none

/-! ## Titles of tokens -/

/-- In the declaration around a name, nothing that the line about the name shows as it is
written takes several lines: neither the names of methods in its types, nor the literal of a
constant. -/
def Visit.PlainDeclaration (src : List Char) (v : Visit) : Prop :=
  match v.ancestors with
  | [] => True
  | declaration :: outer =>
    PlainTypes src declaration.children ∧ Visit.PlainConstant src ⟨declaration, outer⟩

/-- What a name declares is shown on one line if the names in its declaration are. -/
theorem Visit.Declares.oneLine {v : Visit} {info : HoverInfo} (h : v.Declares src name info)
    (hname : v.node.Named src) (hnames : ∀ a ∈ v.ancestors, a.Named src) :
    (∀ s, info = .signature s → OneLine s.header) ∧
      (∀ line, info = .label line → v.PlainDeclaration src → OneLine line) := by
  obtain ⟨node, ancestors⟩ := v
  have hread : OneLine name :=
    hname.here.identifier (Bool.and_eq_true_iff.mp h.reads).2 name h.named
  have hstates := h.states
  cases ancestors with
  | nil => cases hstates
  | cons declaration outer =>
    have hdeclaration := hnames declaration (by simp)
    simp only [declaredInfo] at hstates
    split at hstates
    · rename_i htype
      obtain ⟨s?, hs, he⟩ := map_eq_ok_iff.mp hstates
      obtain ⟨s, rfl, rfl⟩ := Option.map_eq_some_iff.mp he
      have hheader := signatureOf_oneLine (hdeclaration.here.typeName
        (Bool.and_eq_true_iff.mp htype).1) _ hs s rfl
      refine ⟨fun s' hs' => ?_, fun line hline => by cases hline⟩
      cases hs'
      exact hheader
    · obtain ⟨line?, hline, he⟩ := map_eq_ok_iff.mp hstates
      obtain ⟨line, rfl, rfl⟩ := Option.map_eq_some_iff.mp he
      refine ⟨fun s hs => (by cases hs), fun line' hline' hplain => ?_⟩
      cases hline'
      exact lineAbout_oneLine hread hdeclaration hplain.1 hplain.2 _ hline line rfl

/-- What a token shows is known by the registry, or a node of the tree declares it. -/
theorem Shows.origin {r : Registry} {vs : List Visit} {v : Visit} {info : HoverInfo} (hv : v ∈ vs)
    (h : Shows r src vs v name (some info)) :
    r.hover name = some info ∨ ∃ d ∈ vs, d.Declares src name info := by
  generalize hshown : some info = shown at h
  cases h with
  | keyword => exact .inl rfl
  | own states =>
    cases hshown
    exact .inr ⟨v, hv, states⟩
  | borrowed _ _ first =>
    cases hshown
    exact .inr ⟨_, first.mem⟩
  | known => exact .inl rfl

/-- What a token shows is known by the registry, or some node of the tree declares it. -/
theorem walk_tokens_origin {r : Registry} {w : Wrapped} {typeChecking : Bool} {root : Node}
    {found : WalkResult} (h : walk r w typeChecking root = .ok found) {t : Token}
    (ht : t ∈ found.tokens) {info : HoverInfo} (hinfo : t.info = some info) :
    r.hover t.text = some info ∨ ∃ d ∈ root.visits [], d.Declares w.text t.text info := by
  obtain ⟨sightings, hnoted, htokens⟩ := sightings_of_walk h
  have hshows := forall₂_through hnoted htokens fun v s t hs ht => (hs.yields hnoted ht).shows
  obtain ⟨v, hv, hshown⟩ := exists_of_mem_forall₂ hshows ht
  rw [hinfo] at hshown
  exact (hshown.origin hv).imp_right fun ⟨d, hd, hdeclares⟩ =>
    ⟨d, (List.mem_filter.mp hd).1, hdeclares⟩

theorem definition_of_hover {r : Registry} {info : HoverInfo}
    (h : r.hover name = some info) : ∃ d, info = .definition d := by
  obtain ⟨d, _, rfl⟩ := Option.map_eq_some_iff.mp h
  exact ⟨d, rfl⟩

/-- The first line of every outline is one line. The line about a name comes from a
declaration of the name, and is one line unless a method of an object literal in the types of
that declaration has a name over several lines, or the literal of a constant has. -/
theorem titles_on_one_line {r : Registry} {w : Wrapped} {typeChecking : Bool} {root : Node}
    {found : WalkResult} (h : walk r w typeChecking root = .ok found)
    (hnames : root.Named w.text) :
    (∀ t ∈ found.tokens, ∀ s, t.info = some (.signature s) → OneLine s.header) ∧
      ∀ t ∈ found.tokens, ∀ line, t.info = some (.label line) →
        (∃ d ∈ root.visits [], d.Declares w.text t.text (.label line)) ∧
          ∀ d ∈ root.visits [], d.Declares w.text t.text (.label line) →
            d.PlainDeclaration w.text → OneLine line := by
  have hvisits : ∀ v ∈ root.visits [], v.node.Named w.text ∧ ∀ a ∈ v.ancestors, a.Named w.text :=
    Node.visits_of_children (fun _ h => h.children) (by simp) hnames
  have hdeclared : ∀ {d name info}, d ∈ root.visits [] → d.Declares w.text name info →
      (∀ s, info = .signature s → OneLine s.header) ∧
        (∀ line, info = .label line → d.PlainDeclaration w.text → OneLine line) :=
    fun hd hdeclares => hdeclares.oneLine (hvisits _ hd).1 (hvisits _ hd).2
  constructor
  · intro t ht s hs
    obtain hknown | ⟨d, hd, hdeclares⟩ := walk_tokens_origin h ht hs
    · obtain ⟨_, he⟩ := definition_of_hover hknown
      cases he
    · exact (hdeclared hd hdeclares).1 s rfl
  · intro t ht line hline
    refine ⟨?_, fun d hd hdeclares => (hdeclared hd hdeclares).2 line rfl⟩
    obtain hknown | horigin := walk_tokens_origin h ht hline
    · obtain ⟨_, he⟩ := definition_of_hover hknown
      cases he
    · exact horigin

/-- The object in `const o={[⏎"a"]:1};type T=⏎A`. -/
def brokenObject : Node :=
  ruleAt "object" 17 27 ["value"]
    [ruleAt "pair" 18 26 []
      [ruleAt "computed_property_name" 18 24 ["key"] [ruleAt "string" 20 23 [] []],
        ruleAt "number" 25 26 ["value"] []]]

/-- The declaration around it. -/
def brokenConstant : Node :=
  ruleAt "lexical_declaration" 9 28 []
    [.mk ⟨"const", false, false, false, ⟨9, 14⟩, ["kind"]⟩ [],
      ruleAt "variable_declarator" 15 27 [] [ruleAt "identifier" 15 16 ["name"] [], brokenObject]]

/-- All of the tree. -/
def brokenTypes : Node :=
  ruleAt "program" 0 43 []
    [brokenConstant,
      ruleAt "type_alias_declaration" 28 37 []
        [ruleAt "type_identifier" 33 34 ["name"] [], ruleAt "type_identifier" 36 37 ["value"] []]]

theorem brokenObject_plain {src : List Char} : brokenObject.Plain src := by
  have hnumber : (ruleAt "number" 25 26 ["value"] []).Plain src :=
    Node.plain_iff.mpr ⟨fun hk => absurd hk (by decide), List.forall_mem_nil _⟩
  refine Node.plain_iff.mpr ⟨fun _ m hm hk => ?_, List.forall_mem_singleton.mpr hnumber⟩
  obtain rfl := List.mem_singleton.mp hm
  exact absurd hk (by decide)

/-- Types that are written over two lines are shown on one. -/
theorem titles_on_one_line_types :
    let w := Wrapped.ofSource "const o=\x7b[\n\"a\"]:1\x7d;type T=\nA".toList
    let outline : TypeSignature := ⟨.typeAlias, "T", [], [], [], [], [], some "A"⟩
    let line := "(const variable) o: \x7b [ \"a\"]: number; \x7d"
    let tokens : List Token :=
      [⟨⟨0, 5⟩, .keyword, "const", none, none⟩,
        ⟨⟨6, 7⟩, .identifier, "o", some (.label line), none⟩,
        ⟨⟨24, 25⟩, .identifier, "T", some (.signature outline), none⟩,
        ⟨⟨27, 28⟩, .identifier, "A", none, none⟩]
    walk ⟨.empty, false⟩ w true brokenTypes = .ok ⟨tokens, []⟩ ∧ brokenTypes.Named w.text ∧
      OneLine outline.header ∧ OneLine line := by
  intro w outline line tokens
  have hwalk : walk ⟨.empty, false⟩ w true brokenTypes = .ok ⟨tokens, []⟩ := by rfl
  have hnames : ∀ n ∈ brokenTypes.nodes, n.PlainNames w.text := by decide +kernel
  obtain ⟨houtline, hline⟩ := titles_on_one_line hwalk hnames
  -- the visit of the name that is declared
  obtain ⟨d, hd⟩ : ∃ d, (brokenTypes.visits [])[4]? = some d := ⟨_, rfl⟩
  have hdeclares : d.Declares w.text "o" (.label line) := by
    cases hd
    exact ⟨by rfl, by rfl, by rfl⟩
  have hplain : d.PlainDeclaration w.text := by
    cases hd
    refine ⟨⟨fun value hvalue => ?_, List.forall_mem_nil _⟩, by decide⟩
    obtain rfl : brokenObject = value := Option.some.inj hvalue
    exact brokenObject_plain
  have honce := (hline ⟨⟨6, 7⟩, .identifier, "o", some (.label line), none⟩
    (by simp [tokens]) line rfl).2 d (List.mem_of_getElem? hd) hdeclares hplain
  exact ⟨hwalk, hnames, houtline ⟨⟨24, 25⟩, .identifier, "T", some (.signature outline), none⟩
    (by simp [tokens]) outline rfl, honce⟩

/-- The tree of `const o={[⏎"a"](){}},s='\⏎'`. -/
def brokenNames : Node :=
  ruleAt "program" 0 42 []
    [ruleAt "lexical_declaration" 9 36 []
      [.mk ⟨"const", false, false, false, ⟨9, 14⟩, ["kind"]⟩ [],
        ruleAt "variable_declarator" 15 29 []
          [ruleAt "identifier" 15 16 ["name"] [],
            ruleAt "object" 17 29 ["value"]
              [ruleAt "method_definition" 18 28 []
                [ruleAt "computed_property_name" 18 24 ["name"] [ruleAt "string" 20 23 [] []],
                  ruleAt "formal_parameters" 24 26 ["parameters"] [],
                  ruleAt "statement_block" 26 28 ["body"] []]]],
        ruleAt "variable_declarator" 30 36 []
          [ruleAt "identifier" 30 31 ["name"] [], ruleAt "string" 32 36 ["value"] []]]]

/-- The name of a method and the string of a constant break the lines about them. -/
theorem titles_on_one_line_broken :
    let w := Wrapped.ofSource "const o=\x7b[\n\"a\"]()\x7b\x7d\x7d,s='\\\n'".toList
    let object := "(const variable) o: \x7b [\n\"a\"](): void; \x7d"
    let string := "(const variable) s: '\\\n'"
    let tokens : List Token :=
      [⟨⟨0, 5⟩, .keyword, "const", none, none⟩,
        ⟨⟨6, 7⟩, .identifier, "o", some (.label object), none⟩,
        ⟨⟨21, 22⟩, .identifier, "s", some (.label string), none⟩]
    walk ⟨.empty, false⟩ w true brokenNames = .ok ⟨tokens, []⟩ ∧
      brokenNames.Named w.text ∧ ¬OneLine object ∧ ¬OneLine string := by
  intro w object string tokens
  have hnames : ∀ n ∈ brokenNames.nodes, n.PlainNames w.text := by decide +kernel
  exact ⟨by rfl, hnames, by decide, by decide⟩

end HoverTips.Tree
