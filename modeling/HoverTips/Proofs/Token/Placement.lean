import HoverTips.Token.Order
import HoverTips.Token.Scan
import HoverTips.Proofs.Text.Runs

/-! # Tokens over a source

A token lies over a source when its span selects its text there. Both
constructors give such tokens, merging and hydrating keep them, and the
glossary scan has one for every whole word that the registry knows
(`mem_scanGlossary_iff`). -/

namespace HoverTips

theorem Span.precedes_iff {a b : Span} :
    a.precedes b = true ↔ a.start < b.start ∨ (a.start = b.start ∧ b.stop ≤ a.stop) := by
  simp [Span.precedes]

namespace Token

/-- A token lies over a source: its span is nonempty, stands in the source
between characters, and holds the token's text. -/
structure Placed (source : List Char) (t : Token) : Prop where
  nonempty : t.span.start < t.span.stop
  inside : t.span.stop ≤ Text.byteLength source
  starts : Text.isBoundary source t.span.start = true
  stops : Text.isBoundary source t.span.stop = true
  holds : Text.cut source t.span.start t.span.stop = .ok t.text.toList

theorem placed_iff {source : List Char} {t : Token} :
    t.Placed source ↔ t.span.select? source = some t.text.toList := by
  constructor
  · intro h
    simp [Span.select?, h.nonempty, h.holds, Except.toOption]
  · intro h
    obtain ⟨hne, before, after, hcs, hs⟩ := Span.select?_eq_some_iff.mp h
    have hpos := Text.byteLength_pos_iff.mpr hne
    have hlt : t.span.start < t.span.stop := by rw [hs]; simp only; omega
    refine ⟨hlt, ?_, ?_, ?_, ?_⟩
    · rw [hs, hcs]; simp only [Text.byteLength_append]; omega
    · rw [hs, hcs, List.append_assoc]; exact Text.isBoundary_append _ _
    · rw [hs, hcs]; simpa using Text.isBoundary_append (before ++ t.text.toList) after
    · exact (Text.cut_eq_ok_iff hlt).mpr ⟨before, after, hcs, by rw [hs], by rw [hs]⟩

theorem at?_eq_some_iff {source : List Char} {span : Span} {kind : TokenKind} {t : Token} :
    at? source span kind = some t ↔
      ∃ piece, span.select? source = some piece ∧
        t = ⟨span, kind, String.ofList piece, none, none⟩ := by
  rw [at?, Option.map_eq_some_iff]
  exact exists_congr fun _ => and_congr_right fun _ => eq_comm

theorem placed_of_at? {source : List Char} {span : Span} {kind : TokenKind} {t : Token}
    (h : at? source span kind = some t) : t.Placed source :=
  placed_iff.mpr (select_span h)

theorem errorAt?_eq_some_iff {source : List Char} {span : Span} {message : String} {t : Token} :
    errorAt? source span message = some t ↔
      ∃ piece, span.select? source = some piece ∧
        t = ⟨span, .error, String.ofList piece, none, some message⟩ := by
  rw [errorAt?, at?, Option.map_map, Option.map_eq_some_iff]
  exact exists_congr fun _ => and_congr_right fun _ => eq_comm

theorem placed_of_errorAt? {source : List Char} {span : Span} {message : String} {t : Token}
    (h : errorAt? source span message = some t) : t.Placed source := by
  obtain ⟨piece, hp, rfl⟩ := errorAt?_eq_some_iff.mp h
  exact placed_iff.mpr (by simpa using hp)

/-! ## Hydrated tokens -/

section hydrate

variable (r : Registry) (t : Token)

@[simp] theorem hydrate_span : (t.hydrate r).span = t.span := by
  unfold hydrate; split <;> rfl

@[simp] theorem hydrate_text : (t.hydrate r).text = t.text := by
  unfold hydrate; split <;> rfl

@[simp] theorem hydrate_info : (t.hydrate r).info = t.info.or (r.hover t.text) := by
  unfold hydrate; split <;> simp [*]

theorem hydrate_placed {source : List Char} (h : t.Placed source) :
    (t.hydrate r).Placed source := by
  rw [placed_iff] at h ⊢
  simpa using h

end hydrate

end Token

/-! ## Order and precedence -/

theorem sortTokens_perm (tokens : List Token) : (sortTokens tokens).Perm tokens :=
  List.mergeSort_perm tokens _

@[simp] theorem mem_sortTokens {tokens : List Token} {t : Token} :
    t ∈ sortTokens tokens ↔ t ∈ tokens :=
  (sortTokens_perm tokens).mem_iff

theorem Span.precedes_trans {a b c : Span} (hab : a.precedes b = true) (hbc : b.precedes c = true) :
    a.precedes c = true := by
  rw [precedes_iff] at hab hbc ⊢
  omega

theorem Span.precedes_total (a b : Span) : (a.precedes b || b.precedes a) = true := by
  rw [Bool.or_eq_true, precedes_iff, precedes_iff]
  omega

theorem sortTokens_ordered (tokens : List Token) :
    (sortTokens tokens).Pairwise fun a b => a.span.precedes b.span = true := by
  apply List.pairwise_mergeSort
  · exact fun _ _ _ => Span.precedes_trans
  · exact fun _ _ => Span.precedes_total _ _

/-- A token that is added before sorting comes to stand behind those that it does
not precede, and in front of all others. -/
theorem sortTokens_cons (t : Token) (tokens : List Token) :
    ∃ front back, sortTokens (t :: tokens) = front ++ t :: back ∧
      sortTokens tokens = front ++ back ∧
      front = (sortTokens tokens).filter (fun u => !t.span.precedes u.span) ∧
      back = (sortTokens tokens).filter fun u => t.span.precedes u.span := by
  have htrans (a b c : Token) : a.span.precedes b.span = true → b.span.precedes c.span = true →
      a.span.precedes c.span = true := Span.precedes_trans
  have htotal (a b : Token) : (a.span.precedes b.span || b.span.precedes a.span) = true :=
    Span.precedes_total _ _
  obtain ⟨front, back, hcons, hrest, hfront⟩ := List.mergeSort_cons htrans htotal t tokens
  have hordered := sortTokens_ordered (t :: tokens)
  rw [sortTokens, hcons, List.pairwise_append, List.pairwise_cons] at hordered
  have hback : ∀ u ∈ back, t.span.precedes u.span = true := hordered.2.1.1
  have hrest' : sortTokens tokens = front ++ back := hrest
  refine ⟨front, back, hcons, hrest', ?_, ?_⟩
  · have hnone : back.filter (fun u => !t.span.precedes u.span) = [] :=
      List.filter_eq_nil_iff.mpr fun u hu => by simp [hback u hu]
    rw [hrest', List.filter_append, hnone, List.append_nil, List.filter_eq_self.mpr hfront]
  · have hnone : front.filter (fun u => t.span.precedes u.span) = [] :=
      List.filter_eq_nil_iff.mpr fun u hu => by simpa using hfront u hu
    rw [hrest', List.filter_append, hnone, List.nil_append, List.filter_eq_self.mpr hback]

/-- Sorting keeps the order of a part in the whole. -/
theorem sortTokens_sublist {tokens more : List Token} (h : tokens.Sublist more) :
    (sortTokens tokens).Sublist (sortTokens more) := by
  induction h with
  | slnil => exact List.Sublist.refl _
  | @cons tokens more t _ ih =>
    obtain ⟨front, back, hcons, hrest, _, _⟩ := sortTokens_cons t more
    rw [hrest] at ih
    rw [hcons]
    exact ih.trans ((List.sublist_cons_self t back).append_left front)
  | @cons_cons tokens more t _ ih =>
    obtain ⟨front, back, hcons, _, hfront, hback⟩ := sortTokens_cons t tokens
    obtain ⟨front', back', hcons', _, hfront', hback'⟩ := sortTokens_cons t more
    rw [hcons, hcons', hfront, hfront', hback, hback']
    exact (ih.filter _).append ((ih.filter _).cons_cons t)

/-- Tokens that stand in reading order come out of a sort in that order. -/
theorem sublist_sortTokens {tokens more : List Token}
    (hordered : tokens.Pairwise fun a b => a.span.precedes b.span = true)
    (h : tokens.Sublist more) : tokens.Sublist (sortTokens more) :=
  List.sublist_mergeSort (fun (a _ _ : Token) => Span.precedes_trans (a := a.span))
    (fun a b => Span.precedes_total a.span b.span) hordered h

theorem claims_eq_false_iff {tokens : List Token} {s : Span} :
    claims tokens s = false ↔ ∀ t ∈ tokens, t.span ≠ s := by
  simp [claims]

theorem mem_mergeTokens {scan walk : List Token} {t : Token} :
    t ∈ mergeTokens scan walk ↔ t ∈ walk ∨ (t ∈ scan ∧ ∀ w ∈ walk, w.span ≠ t.span) := by
  simp [mergeTokens, claims]

/-- Merging keeps spans distinct: the scan gives way where the walk has a token. -/
theorem nodup_mergeTokens {scan walk : List Token} (hs : (scan.map Token.span).Nodup)
    (hw : (walk.map Token.span).Nodup) : ((mergeTokens scan walk).map Token.span).Nodup := by
  have hperm := (sortTokens_perm (walk ++ scan.filter fun t => !claims walk t.span)).map Token.span
  refine hperm.nodup_iff.mpr ?_
  rw [List.map_append]
  refine List.nodup_append.mpr ⟨hw, hs.sublist (List.filter_sublist.map _), ?_⟩
  intro a ha b hb he
  obtain ⟨w, hwm, rfl⟩ := List.mem_map.mp ha
  obtain ⟨t, ht, rfl⟩ := List.mem_map.mp hb
  have hfree := (List.mem_filter.mp ht).2
  rw [Bool.not_eq_true', claims_eq_false_iff] at hfree
  exact hfree w hwm he

/-! ## The scan -/

/-- The token of a whole word. -/
def wordToken (offset : Nat) (word : List Char) : Token :=
  ⟨⟨offset, offset + Text.byteLength word⟩, .identifier, String.ofList word, none, none⟩

theorem at?_of_isRun {p : Char → Bool} {source word : List Char} {offset : Nat}
    (h : Text.IsRun p source offset word) :
    Token.at? source ⟨offset, offset + Text.byteLength word⟩ .identifier =
      some (wordToken offset word) := by
  obtain ⟨before, after, hcs, hb, hne, _⟩ := h
  refine Token.at?_eq_some_iff.mpr ⟨word, ?_, rfl⟩
  exact Span.select?_eq_some_iff.mpr ⟨hne, before, after, hcs, by rw [hb]⟩

/-- The tokens of a glossary's names are the whole words that it knows, and nothing else. -/
theorem Glossary.mem_tokensIn_iff {g : Glossary} {source : List Char} {t : Token} :
    t ∈ g.tokensIn source ↔
      ∃ offset word, Text.IsRun Text.isWord source offset word ∧
        (g.lookup (String.ofList word)).isSome = true ∧ t = wordToken offset word := by
  simp only [tokensIn, List.mem_filterMap, Prod.exists, Text.mem_runsAt_iff]
  constructor
  · rintro ⟨offset, word, hrun, h⟩
    split at h
    · rename_i hknown
      rw [at?_of_isRun hrun] at h
      exact ⟨offset, word, hrun, hknown, (Option.some.inj h).symm⟩
    · cases h
  · rintro ⟨offset, word, hrun, hknown, rfl⟩
    exact ⟨offset, word, hrun, by rw [if_pos hknown]; exact at?_of_isRun hrun⟩

/-- There is a search for the names of the registry, unless it has none. -/
def Registry.Searched (r : Registry) : Prop := r.entries ≠ [] → r.searchable = true

theorem Glossary.build_searched_iff {engine : Text.Engine} {g : Glossary} :
    (g.build engine).Searched ↔ (g.entries ≠ [] → engine g.expression = true) := by
  have hentries : (g.build engine).entries = g.entries := rfl
  have hsearchable : (g.build engine).searchable = (!g.isEmpty && engine g.expression) := rfl
  rw [Registry.Searched, hentries, hsearchable, isEmpty]
  refine forall_congr' fun hne => ?_
  rw [List.isEmpty_eq_false_iff.mpr hne, Bool.not_false, Bool.true_and]

/-- The scan finds names only. -/
theorem scanGlossary_sublist_tokensIn (r : Registry) (source : List Char) :
    (scanGlossary r source).Sublist (r.tokensIn source) := by
  unfold scanGlossary
  split
  · exact .refl _
  · exact List.nil_sublist _

/-- With a search the scan finds all names. -/
theorem Registry.Searched.scan_eq {r : Registry} (h : r.Searched) (source : List Char) :
    scanGlossary r source = r.tokensIn source := by
  rw [scanGlossary]
  by_cases hentries : r.entries = []
  · have hnone : r.tokensIn source = [] := by
      refine List.eq_nil_iff_forall_not_mem.mpr fun t ht => ?_
      obtain ⟨_, word, _, hknown, _⟩ := Glossary.mem_tokensIn_iff.mp ht
      simp [Glossary.lookup, hentries] at hknown
    rw [hnone, ite_self]
  · rw [if_pos (h hentries)]

/-- The scan finds the whole words that the registry knows, if there is a search for
them, and nothing else. -/
theorem mem_scanGlossary_iff {r : Registry} {source : List Char} {t : Token} :
    t ∈ scanGlossary r source ↔ r.searchable = true ∧
      ∃ offset word, Text.IsRun Text.isWord source offset word ∧
        (r.lookup (String.ofList word)).isSome = true ∧ t = wordToken offset word := by
  rw [← Glossary.mem_tokensIn_iff, scanGlossary]
  cases r.searchable <;> simp

theorem scanGlossary_placed {r : Registry} {source : List Char} {t : Token}
    (h : t ∈ scanGlossary r source) : t.Placed source := by
  obtain ⟨-, offset, word, hrun, _, rfl⟩ := mem_scanGlossary_iff.mp h
  exact Token.placed_of_at? (at?_of_isRun hrun)

/-- The scan's tokens stand in order, and each ends before the next starts. -/
theorem scanGlossary_apart (r : Registry) (source : List Char) :
    (scanGlossary r source).Pairwise fun a b => a.span.stop < b.span.start := by
  refine .sublist (scanGlossary_sublist_tokensIn r source) ?_
  refine List.Pairwise.filterMap _ ?_ (Text.runsAt_apart 0 source)
  rintro ⟨i, v⟩ ⟨j, w⟩ hlt a ha b hb
  simp only [Option.ite_none_right_eq_some] at ha hb
  obtain ⟨_, _, rfl⟩ := Token.at?_eq_some_iff.mp ha.2
  obtain ⟨_, _, rfl⟩ := Token.at?_eq_some_iff.mp hb.2
  exact hlt

theorem scanGlossary_nodup (r : Registry) (source : List Char) :
    ((scanGlossary r source).map Token.span).Nodup := by
  refine List.pairwise_map.mpr ((scanGlossary_apart r source).imp_of_mem ?_)
  intro a b ha _ hlt he
  have := (scanGlossary_placed ha).nonempty
  rw [← he] at hlt
  omega

end HoverTips
