import Mathlib.Data.List.Pairwise
import HoverTips.Analysis
import HoverTips.Proofs.Token.Placement

/-! # The scan as a search

The scan can also be read as a search for an alternation: at every position the
names are tried in an order, the first that stands there between word boundaries
is taken, and the search goes on behind it. Names are words, so a name between
word boundaries is a whole run of word characters. Then no order of the names
can matter, no position inside of a word has a match, and the search finds what
the scan finds (`Glossary.Worded.search_eq`). -/

namespace HoverTips

/-! ## The search -/

/-- Of some names the first that stands at the front of a text between word
boundaries. -/
def firstMatch? (names : List (List Char)) (before : Option Char) (cs : List Char) :
    Option (List Char) :=
  if Text.isWordBoundary before cs.head? then
    names.find? fun name => name.isPrefixOf cs &&
      Text.isWordBoundary name.getLast? (cs.drop name.length).head?
  else none

/-- The matches of some names from left to right, with their offsets. The first
`taken` characters belong to a match before. -/
def matchesFrom (names : List (List Char)) :
    (offset : Nat) → (before : Option Char) → (taken : Nat) → List Char → List (Nat × List Char)
  | _, _, _, [] => []
  | offset, _, taken + 1, c :: cs => matchesFrom names (offset + c.utf8Size) (some c) taken cs
  | offset, before, 0, c :: cs =>
    match firstMatch? names before (c :: cs) with
    | some name =>
      (offset, name) :: matchesFrom names (offset + c.utf8Size) (some c) (name.length - 1) cs
    | none => matchesFrom names (offset + c.utf8Size) (some c) 0 cs

/-- One identifier token for every match of a name. -/
def Glossary.search (g : Glossary) (source : List Char) : List Token :=
  (matchesFrom g.alternatives 0 none 0 source).filterMap fun (start, name) =>
    Token.at? source ⟨start, start + Text.byteLength name⟩ .identifier

/-! ## Names are words -/

/-- A nonempty text of word characters. -/
def IsWord (name : List Char) : Prop := name ≠ [] ∧ ∀ c ∈ name, Text.isWord c = true

theorem isWord_of_isNameTail {c : Char} (h : Glossary.isNameTail c = true) :
    Text.isWord c = true := by
  have hascii : c.toNat < 0x80 := by
    unfold Glossary.isNameTail Char.isAlpha Char.isUpper Char.isLower Char.isDigit at h
    simp only [Bool.or_eq_true, Bool.and_eq_true, decide_eq_true_eq, beq_iff_eq, ge_iff_le,
      UInt32.le_iff_toNat_le] at h
    rcases h with (h | h) | rfl
    · change (65 ≤ c.toNat ∧ c.toNat ≤ 90) ∨ 97 ≤ c.toNat ∧ c.toNat ≤ 122 at h
      omega
    · change 48 ≤ c.toNat ∧ c.toNat ≤ 57 at h
      omega
    · decide
  simpa [Text.isWord, hascii, Text.isAsciiAlphanumeric, Glossary.isNameTail] using h

theorem isWord_of_isName {name : String} (h : Glossary.isName name = true) :
    IsWord name.toList := by
  unfold Glossary.isName at h
  split at h
  · cases h
  · rename_i c cs hname
    rw [Bool.and_eq_true] at h
    have hhead : Glossary.isNameTail c = true := by
      have hc := h.1
      simp only [Glossary.isNameHead, Bool.or_eq_true] at hc
      rcases hc with hc | hc
      · simp [Glossary.isNameTail, hc]
      · simp [Glossary.isNameTail, hc]
    rw [hname]
    refine ⟨by simp, ?_⟩
    intro d hd
    rcases List.mem_cons.mp hd with rfl | hd
    · exact isWord_of_isNameTail hhead
    · exact isWord_of_isNameTail (List.all_eq_true.mp h.2 d hd)

namespace Glossary

/-- Every name of the glossary is one word. -/
def Worded (g : Glossary) : Prop := ∀ name ∈ g.entries.map Prod.fst, IsWord name.toList

theorem empty_worded : empty.Worded := by simp [empty, Worded]

theorem Worded.insert {g : Glossary} (h : g.Worded) (name : String) (d : Definition) :
    (g.insert name d).Worded := by
  unfold Glossary.insert
  split
  · rename_i hnew
    rw [Bool.and_eq_true] at hnew
    intro other hother
    rw [List.map_append, List.mem_append] at hother
    rcases hother with hother | hother
    · exact h other hother
    · obtain rfl : other = name := by simpa using hother
      exact isWord_of_isName hnew.1
  · exact h

theorem Worded.insertAll {g : Glossary} (h : g.Worded) (entries : List (String × Definition)) :
    (g.insertAll entries).Worded := by
  unfold Glossary.insertAll
  induction entries generalizing g with
  | nil => exact h
  | cons entry entries ih => exact ih (h.insert entry.1 entry.2)

theorem lookup_isSome_iff {g : Glossary} {name : String} :
    (g.lookup name).isSome = true ↔ name ∈ g.entries.map Prod.fst := by
  unfold lookup
  induction g.entries with
  | nil => simp
  | cons entry entries ih =>
    rw [List.lookup_cons, List.map_cons, List.mem_cons, ← ih]
    by_cases hname : name = entry.1
    · simp [hname]
    · have hne : (name == entry.1) = false := by simpa using hname
      simp only [hne, hname, false_or]

/-- What is tried is what the glossary knows. -/
theorem mem_alternatives_iff {g : Glossary} {name : List Char} :
    name ∈ g.alternatives ↔ (g.lookup (String.ofList name)).isSome = true := by
  rw [alternatives, List.mem_mergeSort, lookup_isSome_iff, List.mem_map, List.mem_map]
  constructor
  · rintro ⟨entry, hentry, rfl⟩
    exact ⟨entry, hentry, by simp⟩
  · rintro ⟨entry, hentry, he⟩
    exact ⟨entry, hentry, by simp [he]⟩

theorem Worded.alternatives {g : Glossary} (h : g.Worded) {name : List Char}
    (hname : name ∈ g.alternatives) : IsWord name := by
  have hword := h _ (lookup_isSome_iff.mp (mem_alternatives_iff.mp hname))
  rwa [String.toList_ofList] at hword

end Glossary

/-! ## What the search finds -/

section matchesFrom

variable {names : List (List Char)} {before : Option Char} {c : Char} {cs : List Char}

theorem IsWord.getLast?_word {name : List Char} (h : IsWord name) :
    name.getLast?.any Text.isWord = true := by
  rw [List.getLast?_eq_some_getLast h.1]
  exact h.2 _ (List.getLast_mem h.1)

/-- A word stands at the front of a text, with a boundary at its end, exactly when it
is the run of word characters there. -/
theorem stands_iff {name : List Char} (h : IsWord name) :
    (name.isPrefixOf cs && Text.isWordBoundary name.getLast? (cs.drop name.length).head?) = true ↔
      name = cs.takeWhile Text.isWord := by
  rw [Text.eq_takeWhile_iff, Bool.and_eq_true, List.isPrefixOf_iff_prefix]
  constructor
  · rintro ⟨⟨after, rfl⟩, hboundary⟩
    refine ⟨after, rfl, h.2, ?_⟩
    intro d hd
    rw [Option.mem_def] at hd
    simpa [Text.isWordBoundary, h.getLast?_word, hd] using hboundary
  · rintro ⟨after, rfl, _, hafter⟩
    refine ⟨List.prefix_append name after, ?_⟩
    rw [List.drop_left]
    cases after with
    | nil => simp [Text.isWordBoundary, h.getLast?_word]
    | cons d after => simp [Text.isWordBoundary, h.getLast?_word, hafter d (by simp)]

/-- No name matches where there is no boundary, or no word character. -/
theorem firstMatch?_eq_none (hnames : ∀ name ∈ names, IsWord name)
    (h : before.any Text.isWord = true ∨ Text.isWord c = false) :
    firstMatch? names before (c :: cs) = none := by
  unfold firstMatch?
  split
  · rename_i hboundary
    have hc : Text.isWord c = false := by
      cases hc : Text.isWord c with
      | false => rfl
      | true =>
        have hbefore := h.resolve_right (by simp [hc])
        simp [Text.isWordBoundary, hbefore, hc] at hboundary
    refine List.find?_eq_none.mpr fun name hname hstands => ?_
    have hrun := (stands_iff (hnames name hname)).mp hstands
    rw [List.takeWhile_cons_of_neg (by simp [hc])] at hrun
    exact (hnames name hname).1 hrun
  · rfl

/-- Where a word starts, what matches is the word. -/
theorem firstMatch?_word (hnames : ∀ name ∈ names, IsWord name)
    (hbefore : before.any Text.isWord = false) (hc : Text.isWord c = true) :
    firstMatch? names before (c :: cs) =
      if c :: cs.takeWhile Text.isWord ∈ names then some (c :: cs.takeWhile Text.isWord)
      else none := by
  have hboundary : Text.isWordBoundary before (c :: cs).head? = true := by
    simp [Text.isWordBoundary, hbefore, hc]
  have hrun : (c :: cs).takeWhile Text.isWord = c :: cs.takeWhile Text.isWord :=
    List.takeWhile_cons_of_pos hc
  rw [firstMatch?, if_pos hboundary]
  cases hfind : names.find? fun name => name.isPrefixOf (c :: cs) &&
      Text.isWordBoundary name.getLast? ((c :: cs).drop name.length).head? with
  | none =>
    rw [if_neg]
    intro hmem
    exact List.find?_eq_none.mp hfind _ hmem ((stands_iff (hnames _ hmem)).mpr hrun.symm)
  | some name =>
    have hmem := List.mem_of_find?_eq_some hfind
    have hstands := List.find?_some hfind
    have hname := (stands_iff (hnames name hmem)).mp hstands
    rw [hrun] at hname
    rw [← hname, if_pos hmem]

/-- The search finds the runs of word characters that are names: behind a character
that is none it finds all of them, and inside of a word, or with a match up to its
end behind it, those after the word. -/
theorem matchesFrom_eq (hnames : ∀ name ∈ names, IsWord name) (offset : Nat) :
    (before.any Text.isWord = false → matchesFrom names offset before 0 cs =
      (Text.runsAt Text.isWord offset cs).filter (·.2 ∈ names)) ∧
    (∀ taken ≤ (Text.splitRuns Text.isWord offset cs).1.length, before.any Text.isWord = true →
      matchesFrom names offset before taken cs =
        (Text.splitRuns Text.isWord offset cs).2.filter (·.2 ∈ names)) := by
  induction cs generalizing offset before with
  | nil => simp [matchesFrom, Text.runsAt, Text.splitRuns]
  | cons c cs ih =>
    have hfront := Text.splitRuns_fst (p := Text.isWord) (offset + c.utf8Size) cs
    obtain ⟨hfresh, hinside⟩ := @ih (some c) (offset + c.utf8Size)
    cases hc : Text.isWord c with
    | false =>
      have hnone : firstMatch? names before (c :: cs) = none := firstMatch?_eq_none hnames (.inr hc)
      have hruns : (Text.splitRuns Text.isWord offset (c :: cs)) =
          ([], Text.runsAt Text.isWord (offset + c.utf8Size) cs) := by
        simp only [Text.splitRuns, hc, Bool.false_eq_true, if_false, Text.runsAt]
      have hstep : matchesFrom names offset before 0 (c :: cs) =
          (Text.runsAt Text.isWord (offset + c.utf8Size) cs).filter (·.2 ∈ names) := by
        rw [matchesFrom, hnone]
        exact hfresh (by simpa using hc)
      refine ⟨fun _ => ?_, fun taken htaken _ => ?_⟩
      · rw [Text.runsAt, hruns]
        exact hstep
      · rw [hruns] at htaken ⊢
        obtain rfl : taken = 0 := by simpa using htaken
        exact hstep
    | true =>
      have hword : (some c).any Text.isWord = true := by simpa using hc
      have hruns : Text.splitRuns Text.isWord offset (c :: cs) =
          (c :: (Text.splitRuns Text.isWord (offset + c.utf8Size) cs).1,
            (Text.splitRuns Text.isWord (offset + c.utf8Size) cs).2) := by
        simp only [Text.splitRuns, hc, if_true]
      refine ⟨fun hbefore => ?_, fun taken htaken hbefore => ?_⟩
      · -- the word that starts here is taken as a whole or not at all
        rw [matchesFrom, firstMatch?_word hnames hbefore hc, Text.runsAt, hruns, ← hfront]
        by_cases hmem : c :: (Text.splitRuns Text.isWord (offset + c.utf8Size) cs).1 ∈ names
        · rw [if_pos hmem]
          simp only [List.isEmpty_cons, Bool.false_eq_true, if_false]
          rw [List.filter_cons_of_pos (by simpa using hmem)]
          congr 1
          exact hinside _ (by simp) hword
        · rw [if_neg hmem]
          simp only [List.isEmpty_cons, Bool.false_eq_true, if_false]
          rw [List.filter_cons_of_neg (by simpa using hmem)]
          exact hinside 0 (Nat.zero_le _) hword
      · rw [hruns] at htaken ⊢
        cases taken with
        | zero =>
          rw [matchesFrom, firstMatch?_eq_none hnames (.inl hbefore)]
          exact hinside 0 (Nat.zero_le _) hword
        | succ taken =>
          rw [matchesFrom]
          exact hinside taken (by simpa using htaken) hword

end matchesFrom

theorem Glossary.Worded.search_eq {g : Glossary} (h : g.Worded) (source : List Char) :
    g.search source = g.tokensIn source := by
  have hmatches := (@matchesFrom_eq g.alternatives none source (fun _ => h.alternatives) 0).1 rfl
  rw [search, hmatches, tokensIn, List.filterMap_filter]
  refine congrArg (fun f => (Text.runsAt Text.isWord 0 source).filterMap f) (funext fun run => ?_)
  simp only [decide_eq_true_eq, mem_alternatives_iff]

/-! ## What the scan finds -/

/-- A name stands in a text as a whole word: it has an offset there, and no word
character right before it or right behind it. -/
def StandsAsWord (g : Glossary) (source : List Char) (s : Span) : Prop :=
  ∃ before name after, source = before ++ name ++ after ∧
    s = ⟨Text.byteLength before, Text.byteLength before + Text.byteLength name⟩ ∧
    (g.lookup (String.ofList name)).isSome = true ∧
    (∀ c ∈ before.getLast?, Text.isWord c = false) ∧ (∀ c ∈ after.head?, Text.isWord c = false)

theorem standsAsWord_iff {g : Glossary} (h : g.Worded) {source : List Char} {s : Span} :
    StandsAsWord g source s ↔ ∃ offset word, Text.IsRun Text.isWord source offset word ∧
      (g.lookup (String.ofList word)).isSome = true ∧
      s = ⟨offset, offset + Text.byteLength word⟩ := by
  constructor
  · rintro ⟨before, name, after, hsource, hs, hknown, hbefore, hafter⟩
    obtain ⟨hne, hall⟩ := h.alternatives (Glossary.mem_alternatives_iff.mpr hknown)
    exact ⟨_, name, ⟨before, after, hsource, rfl, hne, hall, hbefore, hafter⟩, hknown, hs⟩
  · rintro ⟨offset, word, ⟨before, after, hsource, rfl, _, _, hbefore, hafter⟩, hknown, hs⟩
    exact ⟨before, word, after, hsource, hs, hknown, hbefore, hafter⟩

/-- Two runs are the same, or one ends before the other starts. -/
theorem isRun_apart {p : Char → Bool} {source v w : List Char} {i j : Nat}
    (hv : Text.IsRun p source i v) (hw : Text.IsRun p source j w) :
    (i, v) = (j, w) ∨ i + Text.byteLength v < j ∨ j + Text.byteLength w < i := by
  have hapart : (Text.runsAt p 0 source).Pairwise fun a b =>
      a.1 + Text.byteLength a.2 < b.1 ∨ b.1 + Text.byteLength b.2 < a.1 :=
    (Text.runsAt_apart 0 source).imp .inl
  have : Std.Symm fun a b : Nat × List Char =>
      a.1 + Text.byteLength a.2 < b.1 ∨ b.1 + Text.byteLength b.2 < a.1 := ⟨fun _ _ => Or.symm⟩
  by_cases he : (i, v) = (j, w)
  · exact .inl he
  · exact .inr (hapart.forall (Text.mem_runsAt_iff.mpr hv) (Text.mem_runsAt_iff.mpr hw) he)

/-- If the engine takes the search for the names of a registry, the scan is this search:
it has a token over exactly those spans where a name stands as a whole word. If not, it
has none. The tokens stand in order and apart, one over each span, with nothing to show,
and there are no errors. A token that touches a word is the whole word, so a name that is
only a part of it has no token there. -/
theorem scan_wholeWords (engine : Text.Engine) (entries : List (String × Definition))
    (source : List Char) :
    let g := Glossary.empty.insertAll entries
    let r := g.build engine
    let a := Analysis.ofScan (scanGlossary r source)
    (r.Searched → a.tokens = g.search source ∧
      ∀ s, (∃ t ∈ a.tokens, t.span = s) ↔ StandsAsWord g source s) ∧
    (¬r.Searched → a.tokens = []) ∧
      (a.tokens.Pairwise fun t u => t.span.stop < u.span.start) ∧
      (∀ t ∈ a.tokens, t.span.start < t.span.stop ∧ t.kind = .identifier ∧
        t.span.select? source = some t.text.toList ∧ t.info = none ∧ t.message = none) ∧
      a.errors = [] ∧ a.isValid = true ∧
      ∀ offset word, Text.IsRun Text.isWord source offset word → ∀ t ∈ a.tokens,
        t.span.start < offset + Text.byteLength word → offset < t.span.stop →
          t.span = ⟨offset, offset + Text.byteLength word⟩ := by
  intro g r a
  have hworded : g.Worded := Glossary.empty_worded.insertAll entries
  refine ⟨fun hsearched => ?_, fun hrefused => ?_, scanGlossary_apart r source,
    fun t ht => ?_, rfl, rfl, fun offset word hrun t ht hstart hstop => ?_⟩
  · have htokens : a.tokens = g.tokensIn source := hsearched.scan_eq source
    refine ⟨htokens.trans (hworded.search_eq source).symm, fun s => ?_⟩
    rw [standsAsWord_iff hworded, htokens]
    constructor
    · rintro ⟨t, ht, rfl⟩
      obtain ⟨offset, word, hrun, hknown, rfl⟩ := Glossary.mem_tokensIn_iff.mp ht
      exact ⟨offset, word, hrun, hknown, rfl⟩
    · rintro ⟨offset, word, hrun, hknown, rfl⟩
      exact ⟨_, Glossary.mem_tokensIn_iff.mpr ⟨offset, word, hrun, hknown, rfl⟩, rfl⟩
  · exact if_neg fun hsearchable => hrefused fun _ => hsearchable
  · have hplaced := scanGlossary_placed ht
    obtain ⟨-, _, _, _, _, rfl⟩ := mem_scanGlossary_iff.mp ht
    exact ⟨hplaced.nonempty, rfl, Token.placed_iff.mp hplaced, rfl, rfl⟩
  · obtain ⟨-, i, v, hv, _, rfl⟩ := mem_scanGlossary_iff.mp ht
    simp only [wordToken] at hstart hstop ⊢
    rcases isRun_apart hv hrun with he | happart | happart
    · cases he
      rfl
    · omega
    · omega

/-- In a text where the shorter name also stands in front of a letter that takes two
bytes, in front of a superscript, which is no word character, and at the end of the
longer name, it has a token in front of the superscript alone. -/
theorem scan_wholeWords_map :
    let plain : Definition := ⟨"class", "", Palette.builtin.color⟩
    let g := Glossary.empty.insertAll [("Map", plain), ("WeakMap", plain)]
    let r := g.build fun _ => true
    let a := Analysis.ofScan (scanGlossary r "MapÉ Map² WeakMap".toList)
    r.Searched ∧ a.tokens = g.search "MapÉ Map² WeakMap".toList ∧
      a.tokens.map Token.span = [⟨6, 9⟩, ⟨12, 19⟩] ∧
      Text.IsRun Text.isWord "MapÉ Map² WeakMap".toList 12 "WeakMap".toList ∧
      ∀ t ∈ a.tokens, t.span.start < 19 → 12 < t.span.stop → t.span = ⟨12, 19⟩ := by
  intro plain g r a
  have hrun : Text.IsRun Text.isWord "MapÉ Map² WeakMap".toList 12 "WeakMap".toList := by
    refine ⟨"MapÉ Map² ".toList, [], by decide, by decide +kernel, by decide,
      List.all_eq_true.mp (by decide), ?_, ?_⟩
    · intro c hc
      cases hc
      rfl
    · intro c hc
      cases hc
  have hsearched : r.Searched := Glossary.build_searched_iff.mpr fun _ => rfl
  obtain ⟨hsearch, -, -, -, -, -, hwhole⟩ := scan_wholeWords (fun _ => true)
    [("Map", plain), ("WeakMap", plain)] "MapÉ Map² WeakMap".toList
  exact ⟨hsearched, (hsearch hsearched).1, by decide +kernel, hrun,
    hwhole 12 "WeakMap".toList hrun⟩

end HoverTips
