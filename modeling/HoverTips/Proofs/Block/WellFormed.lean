import HoverTips.Block.Parser
import HoverTips.Proofs.Tree.Walk

/-! # Analyses of blocks are well-formed

Whatever trees an analyzer hands over, the analysis of a block has tokens and
errors that lie over its source and stand in reading order, and it is marked as
the scan's exactly when no language parser finished. The parts are shown apart:
what a parser hands over lies over the source, and laying it over the scan
orders it. -/

namespace HoverTips

namespace Analysis

/-- Everything found lies over the source, and errors are marked as such. -/
structure Placed (source : List Char) (a : Analysis) : Prop where
  tokens_placed : ∀ t ∈ a.tokens, t.Placed source
  errors_placed : ∀ e ∈ a.errors, e.Placed source
  errors_marked : ∀ e ∈ a.errors, e.kind = .error ∧ e.message.isSome = true

/-- Reading order over a list of tokens: the earlier start first, and of two with
one start the longer. -/
def InOrder (tokens : List Token) : Prop :=
  tokens.Pairwise fun t u =>
    t.span.start < u.span.start ∨ (t.span.start = u.span.start ∧ u.span.stop ≤ t.span.stop)

/-- What the analysis of a source keeps to. -/
structure WellFormed (source : List Char) (a : Analysis) : Prop extends Placed source a where
  tokens_ordered : InOrder a.tokens
  errors_ordered : InOrder a.errors
  valid_iff : a.isValid = true ↔ a.errors = []

theorem inOrder_sortTokens (tokens : List Token) : InOrder (sortTokens tokens) :=
  (sortTokens_ordered tokens).imp Span.precedes_iff.mp

theorem InOrder.hydrate {tokens : List Token} (h : InOrder tokens) (r : Registry) :
    InOrder (tokens.map (Token.hydrate r)) := by
  refine List.pairwise_map.mpr (h.imp fun {t u} htu => ?_)
  rwa [Token.hydrate_span, Token.hydrate_span]

theorem Placed.hydrate {source : List Char} {a : Analysis} (h : a.Placed source) (r : Registry) :
    (a.hydrate r).Placed source where
  tokens_placed t ht := by
    obtain ⟨u, hu, rfl⟩ := List.mem_map.mp ht
    exact u.hydrate_placed r (h.tokens_placed u hu)
  errors_placed := h.errors_placed
  errors_marked := h.errors_marked

theorem Placed.merge {source : List Char} {scan walk : Analysis}
    (hs : ∀ t ∈ scan.tokens, t.Placed source) (hw : walk.Placed source) :
    (scan.merge walk).Placed source where
  tokens_placed t ht := by
    rcases mem_mergeTokens.mp ht with ht | ⟨ht, _⟩
    · exact hw.tokens_placed t ht
    · exact hs t ht
  errors_placed e he := hw.errors_placed e (mem_sortTokens.mp he)
  errors_marked e he := hw.errors_marked e (mem_sortTokens.mp he)

theorem ofScan_wellFormed (r : Registry) (source : List Char) :
    ((ofScan (scanGlossary r source)).hydrate r).WellFormed source where
  toPlaced := Placed.hydrate ⟨fun _ => scanGlossary_placed, by simp [ofScan], by simp [ofScan]⟩ r
  tokens_ordered := by
    refine InOrder.hydrate ((scanGlossary_apart r source).imp_of_mem fun {t u} ht _ htu => ?_) r
    have := (scanGlossary_placed ht).nonempty
    omega
  errors_ordered := .nil
  valid_iff := by simp [ofScan, Analysis.hydrate]

theorem merge_wellFormed (r : Registry) {source : List Char} {walk : Analysis}
    (h : walk.Placed source) :
    (((ofScan (scanGlossary r source)).merge walk).hydrate r).WellFormed source where
  toPlaced := Placed.hydrate (.merge (fun _ => scanGlossary_placed) h) r
  tokens_ordered := (inOrder_sortTokens _).hydrate r
  errors_ordered := inOrder_sortTokens _
  valid_iff := List.isEmpty_iff

theorem downgraded_placed (parser : String) (capabilities : Capabilities) (source : List Char)
    (reason : String) : (downgraded parser capabilities source reason).Placed source := by
  have hbuilt : ∀ e ∈ (downgraded parser capabilities source reason).errors,
      Token.errorAt? source ⟨0, Text.byteLength source⟩ reason = some e :=
    fun e he => Option.mem_toList.mp he
  refine ⟨by simp [downgraded], fun e he => Token.placed_of_errorAt? (hbuilt e he), ?_⟩
  intro e he
  obtain ⟨_, _, rfl⟩ := Token.errorAt?_eq_some_iff.mp (hbuilt e he)
  exact ⟨rfl, rfl⟩

theorem ofWalk_placed {parser : String} {capabilities : Capabilities} {source : List Char}
    {tokens errors : List Token} (ht : ∀ t ∈ tokens, t.Placed source)
    (he : ∀ e ∈ errors, ∃ span message, Token.errorAt? source span message = some e) :
    (ofWalk parser capabilities tokens errors).Placed source := by
  refine ⟨ht, fun e hm => ?_, fun e hm => ?_⟩
  · obtain ⟨_, _, hb⟩ := he e hm
    exact Token.placed_of_errorAt? hb
  · obtain ⟨_, _, hb⟩ := he e hm
    obtain ⟨_, _, rfl⟩ := Token.errorAt?_eq_some_iff.mp hb
    exact ⟨rfl, rfl⟩

end Analysis

/-! ## Parsers -/

theorem analyzeFlavor_placed (r : Registry) (flavor : Flavor) (source : List Char)
    (tree? : Option Tree.Node) : (analyzeFlavor r flavor source tree?).Placed source := by
  unfold analyzeFlavor
  split
  · rename_i found hwalk
    cases tree? with
    | none => cases hwalk
    | some tree =>
      exact Analysis.ofWalk_placed (Tree.walk_tokens_placed hwalk)
        (Tree.walk_errors_built hwalk).built
  · exact Analysis.downgraded_placed _ _ _ _

theorem analyzeFlavor_usesFallback (r : Registry) (flavor : Flavor) (source : List Char)
    (tree? : Option Tree.Node) :
    (analyzeFlavor r flavor source tree?).usesFallback = true ↔
      ∃ e, walkFlavor r flavor source tree? = .error e := by
  unfold analyzeFlavor
  split <;> simp_all [Analysis.ofWalk, Analysis.downgraded]

/-- What a language parser contributes to a block: its analysis, or a downgraded
one when it could not run. -/
def LanguageParser.contribution (p : LanguageParser) (r : Registry) (source : List Char) :
    Analysis :=
  match p.parse r source with
  | .ok analysis => analysis
  | .error e => .downgraded p.name p.capabilities source e.message

theorem analyzeWith_some (r : Registry) (source : String) (p : LanguageParser) :
    analyzeWith r source (some p) =
      ((Analysis.ofScan (scanGlossary r source.toList)).merge
        (p.contribution r source.toList)).hydrate r := rfl

theorem Flavor.contribution_placed (trees : Trees) (flavor : Flavor) (r : Registry)
    (source : List Char) : ((flavor.parser trees).contribution r source).Placed source := by
  unfold LanguageParser.contribution Flavor.parser
  simp only
  split
  · rename_i a ha
    split at ha
    · cases ha
      exact Analysis.ofWalk_placed (by simp) (by simp)
    · split at ha
      · cases ha
      · cases ha
        exact analyzeFlavor_placed _ _ _ _
  · exact Analysis.downgraded_placed _ _ _ _

/-- Why no language parser finished a block. -/
inductive Unfinished (trees : Trees) (r : Registry) (source info : String) : Prop
  /-- The fence asks for none. -/
  | unselected (h : Flavor.ofInfo? info = none)
  /-- The grammar does not load. -/
  | setup {flavor : Flavor} {version : Nat} (hf : Flavor.ofInfo? info = some flavor)
      (hb : Text.isBlank source.toList = false) (h : trees flavor.grammar = .error version)
  /-- The walk over the block's tree stops. -/
  | walk {flavor : Flavor} {treeOf : String → Option Tree.Node} {e : Tree.WalkError}
      (hf : Flavor.ofInfo? info = some flavor) (hb : Text.isBlank source.toList = false)
      (ht : trees flavor.grammar = .ok treeOf)
      (h : walkFlavor r flavor source.toList (treeOf source) = .error e)

theorem Flavor.contribution_usesFallback (trees : Trees) (flavor : Flavor) (r : Registry)
    {source info : String} (hf : Flavor.ofInfo? info = some flavor) :
    ((flavor.parser trees).contribution r source.toList).usesFallback = true ↔
      Unfinished trees r source info := by
  by_cases hb : Text.isBlank source.toList = true
  · have hfalse : ((flavor.parser trees).contribution r source.toList).usesFallback = false := by
      simp [LanguageParser.contribution, Flavor.parser, hb, Analysis.ofWalk]
    rw [hfalse]
    constructor
    · intro h
      cases h
    · intro h
      cases h with
      | unselected h => rw [hf] at h; cases h
      | setup _ hb' _ => rw [hb] at hb'; cases hb'
      | walk _ hb' _ _ => rw [hb] at hb'; cases hb'
  · have hb : Text.isBlank source.toList = false := by simpa using hb
    cases ht : trees flavor.grammar with
    | error version =>
      have htrue : ((flavor.parser trees).contribution r source.toList).usesFallback = true := by
        simp [LanguageParser.contribution, Flavor.parser, hb, ht, Analysis.downgraded]
      exact ⟨fun _ => .setup hf hb ht, fun _ => htrue⟩
    | ok treeOf =>
      have hparse : (flavor.parser trees).contribution r source.toList =
          analyzeFlavor r flavor source.toList (treeOf source) := by
        simp [LanguageParser.contribution, Flavor.parser, hb, ht]
      rw [hparse, analyzeFlavor_usesFallback]
      refine ⟨fun ⟨e, he⟩ => .walk hf hb ht he, fun h => ?_⟩
      cases h with
      | unselected h => rw [hf] at h; cases h
      | setup hf' _ h =>
        obtain rfl := Option.some.inj (hf.symm.trans hf')
        rw [ht] at h
        cases h
      | walk hf' _ ht' h =>
        obtain rfl := Option.some.inj (hf.symm.trans hf')
        obtain rfl := Except.ok.inj (ht.symm.trans ht')
        exact ⟨_, h⟩

theorem wellFormed_analyzeBlock (trees : Trees) (r : Registry) (source info : String) :
    (analyzeBlock trees r source info).WellFormed source.toList := by
  unfold analyzeBlock parserFor?
  cases Flavor.ofInfo? info with
  | none => exact Analysis.ofScan_wellFormed r source.toList
  | some flavor =>
    rw [Option.map_some, analyzeWith_some]
    exact Analysis.merge_wellFormed r (flavor.contribution_placed trees r source.toList)

theorem usesFallback_analyzeBlock_iff (trees : Trees) (r : Registry) (source info : String) :
    (analyzeBlock trees r source info).usesFallback = true ↔ Unfinished trees r source info := by
  unfold analyzeBlock parserFor?
  cases hf : Flavor.ofInfo? info with
  | none => exact ⟨fun _ => .unselected hf, fun _ => rfl⟩
  | some flavor =>
    rw [Option.map_some, analyzeWith_some]
    exact flavor.contribution_usesFallback trees r hf

/-- The analysis of a block is well-formed over its source, and the scan is all
there is exactly when no language parser finished. -/
theorem analyzeBlock_wellFormed (trees : Trees) (r : Registry) (source info : String) :
    (analyzeBlock trees r source info).WellFormed source.toList ∧
      ((analyzeBlock trees r source info).usesFallback = true ↔
        Unfinished trees r source info) :=
  ⟨wellFormed_analyzeBlock trees r source info, usesFallback_analyzeBlock_iff trees r source info⟩

end HoverTips
