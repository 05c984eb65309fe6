import HoverTips.Block.Parser
import HoverTips.Proofs.Token.Placement
import HoverTips.Proofs.Tree.Nesting
import HoverTips.Proofs.Tree.Slices

/-! # What a parser hands over

A parser finishes every block whose tree lies in the wrapped text
(`Flavor.parse_finishes`). Over a nested tree whose tokens are leaves, its tokens do
not overlap and come out in the order of the source, and merging leaves them in that
order (`Flavor.parse_tokens_disjoint`). -/

namespace HoverTips

variable {trees : Trees} {r : Registry} {flavor : Flavor} {source : List Char}
  {treeOf : String → Option Tree.Node}

theorem Flavor.parse_blank (hblank : Text.isBlank source = true) :
    (flavor.parser trees).parse r source =
      .ok (.ofWalk flavor.name flavor.capabilities [] []) := by
  simp [Flavor.parser, hblank]

theorem Flavor.parse_loaded (hfull : Text.isBlank source = false)
    (hload : trees flavor.grammar = .ok treeOf) :
    (flavor.parser trees).parse r source =
      .ok (analyzeFlavor r flavor source (treeOf (String.ofList source))) := by
  simp [Flavor.parser, hfull, hload]

theorem analyzeFlavor_of_walk {tree? : Option Tree.Node} {found : Tree.WalkResult}
    (h : walkFlavor r flavor source tree? = .ok found) :
    analyzeFlavor r flavor source tree? =
      .ofWalk flavor.name flavor.capabilities found.tokens found.errors := by
  rw [analyzeFlavor, h]

/-! ## Finishing -/

/-- A parser is never downgraded over a block that is not blank and whose tree lies in
the wrapped text: the walk finishes, what it finds is all of the analysis, and nothing
is cut or computed at an offset that the text does not have. -/
theorem Flavor.parse_finishes (trees : Trees) (r : Registry) (flavor : Flavor)
    {source : List Char} {treeOf : String → Option Tree.Node} {tree : Tree.Node}
    (hfull : Text.isBlank source = false) (hload : trees flavor.grammar = .ok treeOf)
    (htree : treeOf (String.ofList source) = some tree)
    (hfits : ∀ n ∈ tree.nodes, n.label.Fits (Wrapped.ofSource source).text) :
    ∃ found a, walkFlavor r flavor source (some tree) = .ok found ∧
      (flavor.parser trees).parse r source = .ok a ∧
      a.tokens = found.tokens ∧ a.errors = found.errors ∧
      a.usesFallback = false ∧ a.warnings = [] ∧
      Tree.SafelySliced (.ofSource source) tree := by
  have hall : tree.Fits (Wrapped.ofSource source).text := Tree.Node.all_iff.mpr hfits
  obtain ⟨found, hfound⟩ := Tree.walk_succeeds r flavor.capabilities.typeChecking hall
  have hwalk : walkFlavor r flavor source (some tree) = .ok found := hfound
  refine ⟨found, .ofWalk flavor.name flavor.capabilities found.tokens found.errors, hwalk, ?_,
    rfl, rfl, rfl, rfl, Tree.safelySliced_of_fits hall⟩
  rw [parse_loaded hfull hload, htree, analyzeFlavor_of_walk hwalk]

/-- The tree of `let é:number='ü'`, with text out of place that reaches from the string
into the wrapper, and a token that is missing at the end of the source. -/
def stringForNumber : Tree.Node :=
  .mk ⟨"program", true, false, false, ⟨0, 33⟩, []⟩
    [.mk ⟨"lexical_declaration", true, false, false, ⟨9, 27⟩, []⟩
      [.mk ⟨"let", false, false, false, ⟨9, 12⟩, ["kind"]⟩ [],
        .mk ⟨"variable_declarator", true, false, false, ⟨13, 27⟩, []⟩
          [.mk ⟨"identifier", true, false, false, ⟨13, 15⟩, ["name"]⟩ [],
            .mk ⟨"type_annotation", true, false, false, ⟨15, 22⟩, ["type"]⟩
              [.mk ⟨"predefined_type", true, false, false, ⟨16, 22⟩, []⟩ []],
            .mk ⟨"string", true, false, false, ⟨23, 27⟩, ["value"]⟩ []],
        .mk ⟨";", false, false, true, ⟨27, 27⟩, []⟩ []],
      .mk ⟨"ERROR", true, true, false, ⟨26, 30⟩, []⟩ []]

/-- A fault reaches from the last quote into the wrapper, and the declared name is a
character of two bytes. -/
theorem Flavor.parse_finishes_faulty :
    let source := "let é:number='ü'".toList
    let trees : Trees := fun _ => .ok fun _ => some stringForNumber
    Text.isBlank source = false ∧
      (∀ n ∈ stringForNumber.nodes, n.label.Fits (Wrapped.ofSource source).text) ∧
      ∃ a, (Flavor.typescript.parser trees).parse ⟨.empty, false⟩ source = .ok a ∧
        a.usesFallback = false ∧ a.warnings = [] ∧
        Tree.SafelySliced (.ofSource source) stringForNumber := by
  intro source trees
  have hfull : Text.isBlank source = false := by decide
  have hfits : ∀ n ∈ stringForNumber.nodes, n.label.Fits (Wrapped.ofSource source).text := by
    decide
  obtain ⟨_, a, _, ha, _, _, hfallback, hwarnings, hslices⟩ :=
    parse_finishes trees ⟨.empty, false⟩ .typescript hfull rfl rfl hfits
  exact ⟨hfull, hfits, a, ha, hfallback, hwarnings, hslices⟩

/-! ## Disjoint tokens -/

/-- Each token of the list ends before the next one starts, and starts before it too. -/
def InSourceOrder (tokens : List Token) : Prop :=
  tokens.Pairwise fun t u => t.span.start < u.span.start ∧ t.span.stop ≤ u.span.start

/-- A merge keeps tokens in the order of the source as they are. -/
theorem InSourceOrder.sublist_mergeTokens {tokens : List Token} (h : InSourceOrder tokens)
    (scan : List Token) : tokens.Sublist (mergeTokens scan tokens) :=
  sublist_sortTokens (h.imp fun htu => Span.precedes_iff.mpr (.inl htu.1))
    (List.sublist_append_left ..)

theorem analyzeFlavor_inSourceOrder {tree? : Option Tree.Node}
    (h : ∀ tree, tree? = some tree → tree.WellNested ∧ tree.TokensAreLeaves) :
    InSourceOrder (analyzeFlavor r flavor source tree?).tokens := by
  cases hwalk : walkFlavor r flavor source tree? with
  | error e =>
    rw [analyzeFlavor, hwalk]
    exact .nil
  | ok found =>
    rw [analyzeFlavor_of_walk hwalk]
    cases tree? with
    | none => cases hwalk
    | some tree =>
      obtain ⟨hnested, hleaves⟩ := h tree rfl
      have hplaced := Tree.walk_tokens_placed hwalk
      refine (Tree.walk_tokens_in_order hwalk hnested hleaves).imp_of_mem fun {t u} ht _ htu => ?_
      exact ⟨Nat.lt_of_lt_of_le (hplaced t ht).nonempty htu, htu⟩

/-- The tokens of a block whose tree is nested, with tokens for leaves, do not overlap
and come out in the order of the source, faulty nodes and nodes cut off by the wrapper
or not. A merge leaves them in that order. -/
theorem Flavor.parse_tokens_disjoint (trees : Trees) (r : Registry) (flavor : Flavor)
    (source : List Char) {treeOf : String → Option Tree.Node}
    (hload : trees flavor.grammar = .ok treeOf)
    (htree : ∀ tree, treeOf (String.ofList source) = some tree →
      tree.WellNested ∧ tree.TokensAreLeaves) :
    ∃ a, (flavor.parser trees).parse r source = .ok a ∧ InSourceOrder a.tokens ∧
      ∀ scan, a.tokens.Sublist (mergeTokens scan a.tokens) := by
  have hordered : ∃ a, (flavor.parser trees).parse r source = .ok a ∧ InSourceOrder a.tokens := by
    cases hblank : Text.isBlank source with
    | true => exact ⟨_, parse_blank hblank, .nil⟩
    | false => exact ⟨_, parse_loaded hblank hload, analyzeFlavor_inSourceOrder htree⟩
  obtain ⟨a, ha, horder⟩ := hordered
  exact ⟨a, ha, horder, horder.sublist_mergeTokens⟩

/-- The tree of `let é=a b c`: `b` is out of place, an identifier is missing behind it,
and the last one reaches into the wrapper. -/
def strayNames : Tree.Node :=
  .mk ⟨"program", true, false, false, ⟨0, 27⟩, []⟩
    [.mk ⟨"lexical_declaration", true, false, false, ⟨9, 17⟩, []⟩
      [.mk ⟨"let", false, false, false, ⟨9, 12⟩, ["kind"]⟩ [],
        .mk ⟨"variable_declarator", true, false, false, ⟨13, 17⟩, []⟩
          [.mk ⟨"identifier", true, false, false, ⟨13, 15⟩, ["name"]⟩ [],
            .mk ⟨"identifier", true, false, false, ⟨16, 17⟩, ["value"]⟩ []]],
      .mk ⟨"ERROR", true, true, false, ⟨18, 19⟩, []⟩
        [.mk ⟨"identifier", true, false, false, ⟨18, 19⟩, []⟩ []],
      .mk ⟨"identifier", true, false, true, ⟨19, 19⟩, []⟩ [],
      .mk ⟨"identifier", true, false, false, ⟨20, 24⟩, []⟩ []]

/-- The name out of place has a token; the missing one and the last one have none. -/
theorem Flavor.parse_tokens_disjoint_stray :
    let source := "let é=a b c".toList
    let trees : Trees := fun _ => .ok fun _ => some strayNames
    strayNames.WellNested ∧ strayNames.TokensAreLeaves ∧
      ∃ a, (Flavor.typescript.parser trees).parse ⟨.empty, false⟩ source = .ok a ∧
        a.tokens.map Token.text = ["let", "é", "a", "b"] ∧ a.errors.length = 2 ∧
        InSourceOrder a.tokens ∧ ∀ scan, a.tokens.Sublist (mergeTokens scan a.tokens) := by
  intro source trees
  have hnested : strayNames.WellNested := by decide
  have hleaves : strayNames.TokensAreLeaves := by decide
  have hfound : ((Flavor.typescript.parser trees).parse ⟨.empty, false⟩ source).toOption.map
      (fun a => (a.tokens.map Token.text, a.errors.length)) =
        some (["let", "é", "a", "b"], 2) := by
    decide +kernel
  obtain ⟨a, ha, horder, hmerge⟩ :=
    parse_tokens_disjoint trees ⟨.empty, false⟩ .typescript source rfl fun tree htree => by
      obtain rfl := Option.some.inj htree
      exact ⟨hnested, hleaves⟩
  rw [ha] at hfound
  obtain ⟨htexts, herrors⟩ := Prod.mk.inj (Option.some.inj hfound)
  exact ⟨hnested, hleaves, a, ha, htexts, herrors, horder, hmerge⟩

end HoverTips
