import HoverTips.Proofs.Block.WellFormed

/-! # Registry names keep their hover content

Laying a language parser's tokens over the scan loses no registry name: where
the parser has a token of its own the name is filled in there, and everywhere
else the scan's token stays. This holds however the parser ends, since one that
could not finish contributes no tokens. It does not hold of a registry whose search was
refused, as there is no scan then. -/

namespace HoverTips

/-- The tokens that a language parser finds in a block. Without a parser, and with one
that cannot run, there are none. -/
def languageTokens (r : Registry) (source : List Char) : Option LanguageParser → List Token
  | none => []
  | some p => match p.parse r source with
    | .ok analysis => analysis.tokens
    | .error _ => []

/-- A parser that cannot run contributes an error and no tokens. -/
theorem LanguageParser.contribution_tokens (p : LanguageParser) (r : Registry)
    (source : List Char) : (p.contribution r source).tokens = languageTokens r source (some p) := by
  simp only [contribution, languageTokens]
  cases p.parse r source <;> rfl

/-- A token of the analysis is a parser's, or the scan's where the parser has
none, with its hover content filled in. -/
theorem mem_analyzeWith_tokens {r : Registry} {source : String} {parser? : Option LanguageParser}
    {t : Token} :
    t ∈ (analyzeWith r source parser?).tokens ↔
      ∃ u, (u ∈ languageTokens r source.toList parser? ∨
          (u ∈ scanGlossary r source.toList ∧
            ∀ l ∈ languageTokens r source.toList parser?, l.span ≠ u.span)) ∧
        u.hydrate r = t := by
  cases parser? with
  | none => simp [analyzeWith, languageTokens, Analysis.ofScan, Analysis.hydrate]
  | some p =>
    rw [analyzeWith_some]
    simp only [Analysis.hydrate, List.mem_map, Analysis.merge, mem_mergeTokens,
      LanguageParser.contribution_tokens, Analysis.ofScan]

theorem Registry.hover_isSome {r : Registry} {name : String} :
    (r.hover name).isSome = (r.lookup name).isSome :=
  Option.isSome_map

/-- A token over a whole word has the word's text. -/
theorem Token.Placed.text_of_isRun {p : Char → Bool} {source word : List Char} {offset : Nat}
    {t : Token} (ht : t.Placed source) (h : Text.IsRun p source offset word)
    (hs : t.span = ⟨offset, offset + Text.byteLength word⟩) : t.text = String.ofList word := by
  have hw := (Token.placed_of_at? (at?_of_isRun h)).holds
  have hl := ht.holds
  rw [hs] at hl
  have heq := Except.ok.inj (hl.symm.trans hw)
  rw [← String.ofList_toList (s := t.text), heq]
  simp [wordToken]

/-- If there is a search for the registry's names, every whole word that is such a name has
a token with hover content; without the search only a parser's tokens are there. Every
token that is not a parser's is such a word, and no token over a registry name lacks
hover content. -/
theorem analyzeWith_names (r : Registry) (source : String) (parser? : Option LanguageParser)
    (hparser : ∀ t ∈ languageTokens r source.toList parser?, t.Placed source.toList) :
    (r.Searched → ∀ offset word, Text.IsRun Text.isWord source.toList offset word →
      (r.lookup (String.ofList word)).isSome = true →
      ∃ t ∈ (analyzeWith r source parser?).tokens,
        t.span = ⟨offset, offset + Text.byteLength word⟩ ∧ t.text = String.ofList word ∧
          t.info.isSome = true) ∧
    (¬r.Searched → ∀ t ∈ (analyzeWith r source parser?).tokens,
      ∃ l ∈ languageTokens r source.toList parser?, l.span = t.span) ∧
    (∀ t ∈ (analyzeWith r source parser?).tokens,
      (∀ l ∈ languageTokens r source.toList parser?, l.span ≠ t.span) →
      Text.IsRun Text.isWord source.toList t.span.start t.text.toList ∧
        t.span.stop = t.span.start + Text.byteLength t.text.toList ∧
        (r.lookup t.text).isSome = true) ∧
    (∀ t ∈ (analyzeWith r source parser?).tokens,
      (r.lookup t.text).isSome = true → t.info.isSome = true) := by
  have filled : ∀ t ∈ (analyzeWith r source parser?).tokens,
      (r.lookup t.text).isSome = true → t.info.isSome = true := by
    intro t ht hknown
    obtain ⟨u, _, rfl⟩ := mem_analyzeWith_tokens.mp ht
    rw [Token.hydrate_text] at hknown
    rw [Token.hydrate_info, Option.isSome_or, Registry.hover_isSome, hknown, Bool.or_true]
  refine ⟨fun hsearched offset word hrun hknown => ?_, fun hrefused t ht => ?_,
    fun t ht hfree => ?_, filled⟩
  · -- the word's token is the parser's if it has one there, and the scan's otherwise
    have hscan : wordToken offset word ∈ scanGlossary r source.toList := by
      rw [hsearched.scan_eq]
      exact Glossary.mem_tokensIn_iff.mpr ⟨offset, word, hrun, hknown, rfl⟩
    have token_of {u : Token} (hu : u.hydrate r ∈ (analyzeWith r source parser?).tokens)
        (hspan : u.span = ⟨offset, offset + Text.byteLength word⟩)
        (htext : u.text = String.ofList word) :
        ∃ t ∈ (analyzeWith r source parser?).tokens,
          t.span = ⟨offset, offset + Text.byteLength word⟩ ∧ t.text = String.ofList word ∧
            t.info.isSome = true := by
      refine ⟨u.hydrate r, hu, by rw [Token.hydrate_span, hspan],
        by rw [Token.hydrate_text, htext], filled _ hu ?_⟩
      rwa [Token.hydrate_text, htext]
    by_cases hclaimed : ∃ l ∈ languageTokens r source.toList parser?,
        l.span = (wordToken offset word).span
    · obtain ⟨l, hl, hspan⟩ := hclaimed
      exact token_of (mem_analyzeWith_tokens.mpr ⟨l, .inl hl, rfl⟩) hspan
        ((hparser l hl).text_of_isRun hrun hspan)
    · have hfree : ∀ l ∈ languageTokens r source.toList parser?,
          l.span ≠ (wordToken offset word).span := fun l hl he => hclaimed ⟨l, hl, he⟩
      exact token_of (mem_analyzeWith_tokens.mpr ⟨_, .inr ⟨hscan, hfree⟩, rfl⟩) rfl rfl
  · obtain ⟨u, hu | ⟨hu, _⟩, rfl⟩ := mem_analyzeWith_tokens.mp ht
    · exact ⟨u, hu, (Token.hydrate_span r u).symm⟩
    · exact absurd (fun _ => (mem_scanGlossary_iff.mp hu).1) hrefused
  · obtain ⟨u, hu | ⟨hu, _⟩, rfl⟩ := mem_analyzeWith_tokens.mp ht
    · exact absurd (Token.hydrate_span r u).symm (hfree u hu)
    · obtain ⟨-, offset, word, hrun, hknown, rfl⟩ := mem_scanGlossary_iff.mp hu
      simpa [wordToken] using And.intro hrun hknown

/-- The parser has a token of its own over the name, with nothing to show, in a
source whose first character takes two bytes. -/
theorem analyzeWith_names_fetch :
    let r := Glossary.build (fun _ => true) ⟨[("fetch", ⟨"function", "", Palette.webApi.color⟩)]⟩
    let parser? := some (Flavor.typescript.parser fun _ => .ok fun _ =>
      some (.mk ⟨"property_identifier", true, false, false, ⟨12, 17⟩, []⟩ []))
    (∀ t ∈ languageTokens r "é.fetch()".toList parser?, t.Placed "é.fetch()".toList) ∧
      r.Searched ∧
        ∃ t ∈ (analyzeWith r "é.fetch()" parser?).tokens,
          t.span = ⟨3, 8⟩ ∧ t.text = "fetch" ∧ t.info.isSome = true := by
  intro r parser?
  have hplaced := (Flavor.contribution_placed (fun _ => .ok fun _ =>
      some (.mk ⟨"property_identifier", true, false, false, ⟨12, 17⟩, []⟩ [])) .typescript
    r "é.fetch()".toList).tokens_placed
  rw [LanguageParser.contribution_tokens] at hplaced
  have hsearched : r.Searched := fun _ => rfl
  refine ⟨hplaced, hsearched, (analyzeWith_names r "é.fetch()" parser? hplaced).1 hsearched 3
    ['f', 'e', 't', 'c', 'h'] ?_ (by decide)⟩
  refine ⟨['é', '.'], ['(', ')'], by decide, by decide, by decide, ?_, ?_, ?_⟩
  · exact List.all_eq_true.mp (by decide)
  · rintro c ⟨⟩
    decide
  · rintro c ⟨⟩
    decide

end HoverTips
