import HoverTips.Proofs.Block.WellFormed
import HoverTips.Proofs.Glossary.Extension
import HoverTips.Tooltip.Page

/-! # A larger vocabulary

The registry is asked last, for what a declaration does not say, and only for tokens.
So a block has the same errors under a larger registry, its walk ends in the same
way, and its tokens are those under the smaller one, filled in where they had nothing
to show, with new ones among them. -/

namespace HoverTips

variable {more r : Registry}

namespace Tree

theorem mapM_map_eq {ε α β γ : Type} {f : α → Except ε β} (g : β → γ) (xs : List α) :
    xs.mapM (fun x => g <$> f x) = List.map g <$> xs.mapM f := by
  induction xs with
  | nil => rfl
  | cons x xs ih =>
    rw [List.mapM_cons, List.mapM_cons, ih]
    cases f x with
    | error e => rfl
    | ok y => cases xs.mapM f <;> rfl

theorem Sighting.token_extends (h : more.Extends r.toGlossary)
    (declared : List (String × HoverInfo)) (source : List Char) (s : Sighting) :
    s.token more declared source = Token.hydrate more <$> s.token r declared source := by
  unfold Sighting.token
  cases Token.at? source s.span s.kind with
  | none => rfl
  | some t =>
    have hinfo : (s.info r declared t.text).or (more.hover t.text) =
        s.info more declared t.text := by
      simp only [Sighting.info, Option.or_assoc, h.hover_or]
    show Except.ok _ = Except.ok (Token.hydrate more _)
    rw [Token.hydrate_eq, hinfo]

theorem tokens_extend (h : more.Extends r.toGlossary) (declared : List (String × HoverInfo))
    (source : List Char) (sightings : List Sighting) :
    sightings.mapM (Sighting.token more declared source) =
      List.map (Token.hydrate more) <$> sightings.mapM (Sighting.token r declared source) := by
  rw [← mapM_map_eq]
  exact congrArg (fun f => sightings.mapM f)
    (funext fun s => s.token_extends h declared source)

/-- A walk ends in the same way, and its tokens are filled in from the larger registry. -/
theorem walk_extends (h : more.Extends r.toGlossary) (w : Wrapped) (typeChecking : Bool)
    (root : Node) :
    walk more w typeChecking root =
      (fun found => ⟨found.tokens.map (Token.hydrate more), found.errors⟩) <$>
        walk r w typeChecking root := by
  simp only [walk, tokens_extend h, map_bind, bind_map_left, map_pure]

end Tree

/-! ## Analyses -/

theorem walkFlavor_extends (h : more.Extends r.toGlossary) (flavor : Flavor) (source : List Char)
    (tree? : Option Tree.Node) :
    walkFlavor more flavor source tree? =
      (fun found => ⟨found.tokens.map (Token.hydrate more), found.errors⟩) <$>
        walkFlavor r flavor source tree? := by
  cases tree? with
  | none => rfl
  | some tree => exact Tree.walk_extends h _ _ _

theorem analyzeFlavor_extends (h : more.Extends r.toGlossary) (flavor : Flavor) (source : List Char)
    (tree? : Option Tree.Node) :
    analyzeFlavor more flavor source tree? =
      (analyzeFlavor r flavor source tree?).hydrate more := by
  unfold analyzeFlavor
  rw [walkFlavor_extends h]
  cases walkFlavor r flavor source tree? <;> rfl

theorem Flavor.contribution_extends (h : more.Extends r.toGlossary) (trees : Trees)
    (flavor : Flavor) (source : List Char) :
    (flavor.parser trees).contribution more source =
      ((flavor.parser trees).contribution r source).hydrate more := by
  simp only [LanguageParser.contribution, Flavor.parser]
  by_cases hblank : Text.isBlank source = true
  · simp only [hblank, if_true]
    rfl
  · simp only [hblank]
    cases trees flavor.grammar with
    | error version => rfl
    | ok treeOf => exact analyzeFlavor_extends h _ _ _

/-! ## Tokens -/

theorem filterMap_sublist {α β : Type} {f g : α → Option β} (h : ∀ x y, f x = some y → g x = some y)
    (xs : List α) : (xs.filterMap f).Sublist (xs.filterMap g) := by
  induction xs with
  | nil => exact .slnil
  | cons x xs ih =>
    cases hf : f x with
    | none =>
      rw [List.filterMap_cons_none hf]
      cases hg : g x with
      | none => rwa [List.filterMap_cons_none hg]
      | some y =>
        rw [List.filterMap_cons_some hg]
        exact ih.cons y
    | some y =>
      rw [List.filterMap_cons_some hf, List.filterMap_cons_some (h x y hf)]
      exact ih.cons_cons y

theorem Glossary.tokensIn_sublist {wide narrow : Glossary} (h : wide.Extends narrow)
    (source : List Char) : (narrow.tokensIn source).Sublist (wide.tokensIn source) := by
  refine filterMap_sublist (fun run token htoken => ?_) _
  obtain ⟨start, word⟩ := run
  simp only at htoken ⊢
  by_cases hknown : (narrow.lookup (String.ofList word)).isSome = true
  · rw [if_pos hknown] at htoken
    rwa [if_pos (h.lookup_isSome hknown)]
  · rw [if_neg hknown] at htoken
    cases htoken

/-- The scan finds more words, and those that it found, if it searches for the larger
vocabulary. -/
theorem scanGlossary_sublist (h : more.Extends r.toGlossary) (hsearched : more.Searched)
    (source : List Char) : (scanGlossary r source).Sublist (scanGlossary more source) := by
  rw [hsearched.scan_eq]
  exact (scanGlossary_sublist_tokensIn r source).trans (Glossary.tokensIn_sublist h source)

theorem hydrate_sortTokens (r : Registry) (tokens : List Token) :
    (sortTokens tokens).map (Token.hydrate r) = sortTokens (tokens.map (Token.hydrate r)) := by
  refine List.map_mergeSort fun t _ u _ => ?_
  rw [Token.hydrate_span, Token.hydrate_span]

theorem claims_hydrate (r : Registry) (tokens : List Token) (s : Span) :
    claims (tokens.map (Token.hydrate r)) s = claims tokens s := by
  simp [claims, List.any_map, Function.comp_def]

/-- Filling in a parser's tokens before they are laid over the scan comes to the same
as filling in all tokens afterwards. -/
theorem hydrate_mergeTokens (r : Registry) (scan walk : List Token) :
    (mergeTokens scan (walk.map (Token.hydrate r))).map (Token.hydrate r) =
      (mergeTokens scan walk).map (Token.hydrate r) := by
  have htwice : ∀ t : Token, (t.hydrate r).hydrate r = t.hydrate r :=
    Token.hydrate_hydrate (.refl r.toGlossary)
  simp only [mergeTokens, claims_hydrate, hydrate_sortTokens, List.map_append, List.map_map,
    Function.comp_def, htwice]

theorem mergeTokens_sublist {scan wider : List Token} (h : scan.Sublist wider)
    (walk : List Token) : (mergeTokens scan walk).Sublist (mergeTokens wider walk) :=
  sortTokens_sublist ((h.filter _).append_left walk)

/-! ## Blocks -/

/-- What an analysis says beside its tokens. -/
def Analysis.withoutTokens (a : Analysis) : Analysis := { a with tokens := [] }

/-- The scan under a larger registry with the same parser laid over it, in either case
filled in. -/
theorem analyzeWith_extends (h : more.Extends r.toGlossary) (trees : Trees) (flavor : Flavor)
    (source : String) :
    (analyzeWith more source (some (flavor.parser trees))).withoutTokens =
        (analyzeWith r source (some (flavor.parser trees))).withoutTokens ∧
      (more.Searched → ((analyzeWith r source (some (flavor.parser trees))).tokens.map
        (Token.hydrate more)).Sublist
        (analyzeWith more source (some (flavor.parser trees))).tokens) := by
  rw [analyzeWith_some, analyzeWith_some, flavor.contribution_extends h trees]
  generalize (flavor.parser trees).contribution r source.toList = walk
  refine ⟨rfl, fun hsearched => ?_⟩
  have hfilled : (Token.hydrate more ∘ Token.hydrate r) = Token.hydrate more :=
    funext (Token.hydrate_hydrate h)
  simp only [Analysis.hydrate, Analysis.merge, Analysis.ofScan, List.map_map, hfilled,
    hydrate_mergeTokens]
  exact (mergeTokens_sublist (scanGlossary_sublist h hsearched source.toList) walk.tokens).map _

/-- Under a larger registry that is searched for, a block's tokens are filled in, and
others may stand among them. All else is as it was. -/
theorem analyzeBlock_extends (h : more.Extends r.toGlossary) (trees : Trees)
    (source info : String) :
    (analyzeBlock trees more source info).withoutTokens =
        (analyzeBlock trees r source info).withoutTokens ∧
      (more.Searched → ((analyzeBlock trees r source info).tokens.map
        (Token.hydrate more)).Sublist (analyzeBlock trees more source info).tokens) := by
  unfold analyzeBlock parserFor?
  cases Flavor.ofInfo? info with
  | none =>
    refine ⟨rfl, fun hsearched => ?_⟩
    have hfilled : (Token.hydrate more ∘ Token.hydrate r) = Token.hydrate more :=
      funext (Token.hydrate_hydrate h)
    simp only [Option.map_none, analyzeWith, Analysis.hydrate, Analysis.ofScan, List.map_map,
      hfilled]
    exact (scanGlossary_sublist h hsearched source.toList).map _
  | some flavor => exact analyzeWith_extends h trees flavor source

theorem shown_sublist {tokens wider : List Token}
    (h : (tokens.map (Token.hydrate more)).Sublist wider) :
    (tokens.filter (·.info.isSome)).Sublist wider := by
  have hshown : (tokens.filter (·.info.isSome)).map (Token.hydrate more) =
      tokens.filter (·.info.isSome) := by
    have hsame : ∀ t ∈ tokens.filter (·.info.isSome), t.hydrate more = id t := by
      intro t ht
      exact Token.hydrate_of_info (List.mem_filter.mp ht).2
    rw [List.map_congr_left hsame, List.map_id]
  rw [← hshown]
  exact (List.filter_sublist.map _).trans h

/-- Tooltips are made of what tokens show, so those of a part are a part. -/
theorem tokenDrafts_sublist {tokens wider : List Token} (block : String)
    (h : (tokens.filter (·.info.isSome)).Sublist wider) :
    (tokens.filterMap (tokenDraft block)).Sublist (wider.filterMap (tokenDraft block)) := by
  have hshown : (tokens.filter (·.info.isSome)).filterMap (tokenDraft block) =
      tokens.filterMap (tokenDraft block) := by
    rw [List.filterMap_filter]
    refine congrArg (fun f => tokens.filterMap f) (funext fun t => ?_)
    cases hinfo : t.info <;> simp [tokenDraft, hinfo]
  rw [← hshown]
  exact h.filterMap _

/-- Terms that are added to a glossary, in layers, take nothing from a block: its errors,
its validity, its parsers and all else that is no token are the same. If the engine
takes the search for the larger vocabulary, every token with something to show stands
there as it was, the others may be filled in, and no tooltip is lost or changed. -/
theorem analyzeBlock_layers (trees : Trees) (engine : Text.Engine) (g : Glossary)
    (layers : List (List (String × Definition))) (source info : String) :
    let more := (layers.foldl Glossary.insertAll g).build engine
    let before := analyzeBlock trees (g.build engine) source info
    let after := analyzeBlock trees more source info
    after.errors = before.errors ∧ after.isValid = before.isValid ∧
    after.parsers = before.parsers ∧ after.usesFallback = before.usesFallback ∧
    after.capabilities = before.capabilities ∧ after.warnings = before.warnings ∧
    (more.Searched →
      (before.tokens.filter (·.info.isSome)).Sublist after.tokens ∧
      (before.tokens.map (Token.hydrate more)).Sublist after.tokens ∧
      ∀ block, (blockDrafts block before).Sublist (blockDrafts block after)) := by
  intro more before after
  have hextends : more.Extends (g.build engine).toGlossary := Glossary.layers_extend layers g
  obtain ⟨hrest, htokens⟩ := analyzeBlock_extends hextends trees source info
  simp only [Analysis.withoutTokens, Analysis.mk.injEq, true_and] at hrest
  obtain ⟨herrors, hvalid, hfallback, hparsers, hcapabilities, hwarnings⟩ := hrest
  refine ⟨herrors, hvalid, hparsers, hfallback, hcapabilities, hwarnings, fun hsearched => ?_⟩
  have hshown := shown_sublist (htokens hsearched)
  refine ⟨hshown, htokens hsearched, fun block => ?_⟩
  have hdrafts := tokenDrafts_sublist block hshown
  have herrorDrafts : after.errors.map (errorDraft block) = before.errors.map (errorDraft block) :=
    congrArg (List.map (errorDraft block)) herrors
  rw [blockDrafts, blockDrafts, herrorDrafts]
  exact hdrafts.append_right _

/-- A layer with a name that is there and one that is new: the first definition stands. -/
theorem analyzeBlock_layers_fetch :
    let fetch : Definition := ⟨"function", "Starts a request.", Palette.webApi.color⟩
    let g : Glossary := ⟨[("fetch", fetch)]⟩
    let layer : List (String × Definition) :=
      [("fetch", ⟨"late", "", Palette.project.color⟩),
        ("retry", ⟨"wrapper", "", Palette.project.color⟩)]
    let more := ([layer].foldl Glossary.insertAll g).build fun _ => true
    let after := analyzeBlock (fun _ => .error 9) more "retry(fetch)" "ruby"
    more.Searched ∧ after.tokens.map (·.text) = ["retry", "fetch"] ∧
      ⟨⟨6, 11⟩, .identifier, "fetch", some (.definition fetch), none⟩ ∈ after.tokens := by
  intro fetch g layer more after
  have hsearched : more.Searched := fun _ => rfl
  obtain ⟨-, -, -, -, -, -, htokens⟩ :=
    analyzeBlock_layers (fun _ => .error 9) (fun _ => true) g [layer] "retry(fetch)" "ruby"
  exact ⟨hsearched, by decide +kernel, (htokens hsearched).1.subset (by decide +kernel)⟩

end HoverTips
