import HoverTips.Proofs.Tooltip.Phrases

/-! # Phrases as whole words

A phrase is looked for with a word boundary at each of its ends that asks for one.
Which ends ask is decided by one class of characters, and where a boundary is by
another one. A phrase is found exactly where it stands as a whole word if the two
classes agree on its ends. Otherwise some text breaks the rule: a superscript at an
end asks for a boundary where there is none, so the phrase is missed, and a
combining mark at an end does not ask, so the phrase is found inside of a word. -/

namespace HoverTips

/-- A pattern stands in a text between neighbours that its ends accept. -/
def StandsWith (accepts : Char → Option Char → Prop) (pattern text : List Char) : Prop :=
  ∃ before after, text = before ++ pattern ++ after ∧
    (∀ c ∈ pattern.head?, accepts c before.getLast?) ∧
    ∀ c ∈ pattern.getLast?, accepts c after.head?

/-- An end of a pattern and its neighbour are not both word characters. -/
def NotJoined (c : Char) (neighbour : Option Char) : Prop :=
  ¬(Text.isWord c = true ∧ neighbour.any Text.isWord = true)

/-- An end of a pattern that asks for a word boundary has one. -/
def HasBoundary (c : Char) (neighbour : Option Char) : Prop :=
  asksBoundary c = true → Text.isWord c ≠ neighbour.any Text.isWord

/-- A character asks for a boundary exactly when it is a word character. -/
def AsksAsWord (c : Char) : Prop := asksBoundary c = Text.isWord c

/-! ## The search -/

section occursIn

variable {pattern text : List Char} {before : Option Char}

theorem occursHere_iff :
    occursHere pattern before text = true ↔
      ∃ after, text = pattern ++ after ∧ (∀ c ∈ pattern.head?, HasBoundary c before) ∧
        ∀ c ∈ pattern.getLast?, HasBoundary c after.head? := by
  have hback (c : Char) (d : Option Char) :
      (!asksBoundary c || Text.isWordBoundary (some c) d) = true ↔ HasBoundary c d := by
    cases h : asksBoundary c <;> simp [HasBoundary, Text.isWordBoundary, h]
  have hfront (c : Char) : (!asksBoundary c || Text.isWordBoundary before (some c)) = true ↔
      HasBoundary c before := by
    rw [← hback, Text.isWordBoundary, Text.isWordBoundary, bne_comm]
  rw [occursHere, Bool.and_eq_true, Bool.and_eq_true, List.isPrefixOf_iff_prefix, and_assoc]
  constructor
  · intro ⟨⟨after, he⟩, hhead, hlast⟩
    subst he
    rw [List.drop_left] at hlast
    refine ⟨after, rfl, ?_, ?_⟩
    · intro c hc
      rw [hc] at hhead
      exact (hfront c).mp hhead
    · intro c hc
      rw [hc] at hlast
      exact (hback c _).mp hlast
  · intro ⟨after, he, hhead, hlast⟩
    subst he
    rw [List.drop_left]
    refine ⟨List.prefix_append _ _, ?_, ?_⟩
    · cases hc : pattern.head? with
      | none => rfl
      | some c => exact (hfront c).mpr (hhead c hc)
    · cases hc : pattern.getLast? with
      | none => rfl
      | some c => exact (hback c _).mpr (hlast c hc)

/-- The search from left to right finds every occurrence; in front of the text stands
`before`. -/
theorem occursIn_before_iff :
    occursIn pattern before text = true ↔
      ∃ front after, text = front ++ pattern ++ after ∧
        (∀ c ∈ pattern.head?, HasBoundary c (front.getLast?.or before)) ∧
        ∀ c ∈ pattern.getLast?, HasBoundary c after.head? := by
  induction text generalizing before with
  | nil =>
    rw [occursIn, occursHere_iff]
    constructor
    · intro ⟨after, he, hhead, hlast⟩
      exact ⟨[], after, he, hhead, hlast⟩
    · intro ⟨front, after, he, hhead, hlast⟩
      have hfront : front = [] := by simp_all
      subst hfront
      exact ⟨after, he, hhead, hlast⟩
  | cons d text ih =>
    rw [occursIn, Bool.or_eq_true, occursHere_iff, ih]
    have hstep (front : List Char) :
        (d :: front).getLast?.or before = front.getLast?.or (some d) := by
      cases h : front.getLast? <;> simp [List.getLast?_cons, h]
    constructor
    · intro h
      cases h with
      | inl h =>
        obtain ⟨after, he, hhead, hlast⟩ := h
        exact ⟨[], after, he, hhead, hlast⟩
      | inr h =>
        obtain ⟨front, after, he, hhead, hlast⟩ := h
        exact ⟨d :: front, after, by rw [he]; rfl, by rwa [hstep], hlast⟩
    · intro ⟨front, after, he, hhead, hlast⟩
      cases front with
      | nil => exact .inl ⟨after, he, hhead, hlast⟩
      | cons e front =>
        obtain ⟨rfl, htext⟩ := List.cons.inj he
        rw [hstep] at hhead
        exact .inr ⟨front, after, htext, hhead, hlast⟩

theorem occursIn_iff : occursIn pattern none text = true ↔ StandsWith HasBoundary pattern text := by
  simp [occursIn_before_iff, StandsWith]

end occursIn

/-! ## Ends of patterns -/

section StandsWith

variable {accepts : Char → Option Char → Prop} {pattern text : List Char}

theorem StandsWith.reverse (h : StandsWith accepts pattern text) :
    StandsWith accepts pattern.reverse text.reverse := by
  obtain ⟨before, after, rfl, hhead, hlast⟩ := h
  exact ⟨after.reverse, before.reverse, by simp, by simpa using hlast, by simpa using hhead⟩

theorem standsWith_reverse_iff :
    StandsWith accepts pattern.reverse text ↔ StandsWith accepts pattern text.reverse := by
  constructor
  · intro h
    simpa using h.reverse
  · intro h
    simpa using h.reverse

theorem hasBoundary_iff_notJoined {c : Char} (h : AsksAsWord c) (neighbour : Option Char) :
    HasBoundary c neighbour ↔ NotJoined c neighbour := by
  rw [HasBoundary, NotJoined, h]
  cases Text.isWord c <;> simp

theorem standsWith_boundary_iff (hhead : ∀ c ∈ pattern.head?, AsksAsWord c)
    (hlast : ∀ c ∈ pattern.getLast?, AsksAsWord c) :
    StandsWith HasBoundary pattern text ↔ StandsWith NotJoined pattern text := by
  have hfront (d : Option Char) : (∀ c ∈ pattern.head?, HasBoundary c d) ↔
      ∀ c ∈ pattern.head?, NotJoined c d :=
    forall₂_congr fun c hc => hasBoundary_iff_notJoined (hhead c hc) d
  have hback (d : Option Char) : (∀ c ∈ pattern.getLast?, HasBoundary c d) ↔
      ∀ c ∈ pattern.getLast?, NotJoined c d :=
    forall₂_congr fun c hc => hasBoundary_iff_notJoined (hlast c hc) d
  simp only [StandsWith, hfront, hback]

/-- A letter of the alphabet is a word character that asks for a boundary. -/
theorem letter_asksAsWord : Text.isWord 'a' = true ∧ asksBoundary 'a' = true := by decide

/-- Every end has its boundary at the end of the text or in front of a letter. -/
theorem exists_neighbour (pattern : List Char) : ∃ after : List Char,
    (after = [] ∨ after = ['a']) ∧ ∀ c ∈ pattern.getLast?, HasBoundary c after.head? := by
  cases hlast : pattern.getLast? with
  | none => exact ⟨[], .inl rfl, by simp⟩
  | some c =>
    cases hc : Text.isWord c with
    | true => exact ⟨[], .inl rfl, by simp [HasBoundary, hc]⟩
    | false => exact ⟨['a'], .inr rfl, by simp [HasBoundary, hc, letter_asksAsWord]⟩

theorem standsWith_self : StandsWith NotJoined pattern pattern :=
  ⟨[], [], by simp, by simp [NotJoined], by simp [NotJoined]⟩

/-- Where a pattern that starts with a word character stands in itself between letters,
or behind one only, it starts with this letter or has a word character in front of it. -/
theorem letter_or_behind_word {c : Char} {rest tail before after : List Char}
    (hword : Text.isWord c = true) (htail : tail = [] ∨ tail = ['a'])
    (he : ['a'] ++ c :: rest ++ tail = before ++ c :: rest ++ after) :
    c = 'a' ∨ before.getLast?.any Text.isWord = true := by
  -- the tail has at most one character, so there are at most two in front of the pattern
  have hlen : before.length ≤ 2 := by
    have htwo : tail.length ≤ 1 := by
      cases htail with
      | inl h => simp [h]
      | inr h => simp [h]
    have := congrArg List.length he
    simp only [List.length_append, List.length_cons, List.length_nil] at this
    omega
  match before, he, hlen with
  | [], he, _ =>
    obtain ⟨hfirst, -⟩ := List.cons.inj he
    exact .inl hfirst.symm
  | [d], he, _ =>
    obtain ⟨hfirst, -⟩ := List.cons.inj he
    right
    simp [← hfirst, letter_asksAsWord]
  | [_, d], he, _ =>
    obtain ⟨-, he⟩ := List.cons.inj he
    obtain ⟨hsecond, -⟩ := List.cons.inj he
    right
    simp [← hsecond, hword]

/-- A pattern that starts with a character where the classes differ breaks the rule:
it is missed in the text that holds nothing else, or found behind a letter. -/
theorem head_asksAsWord
    (h : ∀ text, StandsWith HasBoundary pattern text ↔ StandsWith NotJoined pattern text) :
    ∀ c ∈ pattern.head?, AsksAsWord c := by
  intro c hc
  cases hword : Text.isWord c with
  | false =>
    obtain ⟨before, after, he, hhead, -⟩ := (h pattern).mpr standsWith_self
    have hbefore : before = [] := by
      have hlen := congrArg List.length he
      simp only [List.length_append] at hlen
      exact List.length_eq_zero_iff.mp (by omega)
    subst hbefore
    have hasks : asksBoundary c ≠ true := fun hasks => by simpa [hword] using hhead c hc hasks
    rw [AsksAsWord, hword]
    simpa using hasks
  | true =>
    rw [AsksAsWord, hword]
    by_contra hasks
    obtain ⟨tail, htail, hlast⟩ := exists_neighbour pattern
    have hfound : StandsWith HasBoundary pattern (['a'] ++ pattern ++ tail) := by
      refine ⟨['a'], tail, rfl, ?_, hlast⟩
      intro d hd
      rw [Option.mem_unique hd hc]
      exact fun h => absurd h hasks
    obtain ⟨before, after, he, hends, -⟩ := (h _).mp hfound
    obtain ⟨rest, rfl⟩ := List.head?_eq_some_iff.mp hc
    cases letter_or_behind_word hword htail he with
    | inl hletter =>
      rw [hletter] at hasks
      exact hasks letter_asksAsWord.2
    | inr hany => exact hends c hc ⟨hword, hany⟩

/-- The rule holds in all texts exactly for the patterns on whose ends the classes
agree. -/
theorem standsWith_boundary_everywhere_iff :
    (∀ text, StandsWith HasBoundary pattern text ↔ StandsWith NotJoined pattern text) ↔
      (∀ c ∈ pattern.head?, AsksAsWord c) ∧ ∀ c ∈ pattern.getLast?, AsksAsWord c := by
  constructor
  · intro h
    refine ⟨head_asksAsWord h, ?_⟩
    have hreverse (text : List Char) : StandsWith HasBoundary pattern.reverse text ↔
        StandsWith NotJoined pattern.reverse text := by
      rw [standsWith_reverse_iff, standsWith_reverse_iff]
      exact h text.reverse
    simpa using head_asksAsWord hreverse
  · intro h text
    exact standsWith_boundary_iff h.1 h.2

end StandsWith

/-! ## The registry -/

namespace TriggerRegistry

variable {engine : Text.Engine} {r s : TriggerRegistry} {t u : GlobalTrigger}

theorem mem_occurring_iff {text : String} :
    t ∈ r.occurring text ↔
      t ∈ r.triggers ∧ StandsWith HasBoundary t.pattern text.toList := by
  simp [occurring, occursIn_iff]

theorem mem_triggers_of_add (h : r.add engine t = (.ok (), s)) : t ∈ s.triggers := by
  obtain ⟨-, rfl⟩ := add_ok_iff.mp h
  simp

/-- A trigger stays until its phrase is added again. -/
theorem mem_triggers_offer (ht : t ∈ r.triggers) (hu : u.phrase ≠ t.phrase) :
    t ∈ (r.offer engine u).triggers := by
  obtain ⟨s, h⟩ | ⟨refusal, h⟩ := add_cases engine r u
  · rw [offer_of_ok h]
    obtain ⟨-, rfl⟩ := add_ok_iff.mp h
    simp [ht, hu.symm]
  · rwa [offer_of_error h]

theorem mem_triggers_foldl {later : List GlobalTrigger} (ht : t ∈ r.triggers)
    (hlater : ∀ u ∈ later, u.phrase ≠ t.phrase) :
    t ∈ (later.foldl (offer engine) r).triggers := by
  induction later generalizing r with
  | nil => exact ht
  | cons u later ih =>
    rw [List.forall_mem_cons] at hlater
    exact ih (mem_triggers_offer ht hlater.1) hlater.2

/-- A trigger that was accepted is found in a text, whatever other phrases are added
later, exactly where its phrase stands with a word boundary at each end that asks for
one. This is where the phrase stands as a whole word, in every text, exactly when its
first and its last character ask for a boundary as word characters do. -/
theorem occurring_at_boundaries (hadd : r.add engine t = (.ok (), s)) (later : List GlobalTrigger)
    (hlater : ∀ u ∈ later, u.phrase ≠ t.phrase) :
    let final := later.foldl (offer engine) s
    (∀ text, t ∈ final.occurring text ↔ StandsWith HasBoundary t.pattern text.toList) ∧
      ((∀ text, t ∈ final.occurring text ↔ StandsWith NotJoined t.pattern text.toList) ↔
        (∀ c ∈ t.pattern.head?, AsksAsWord c) ∧ ∀ c ∈ t.pattern.getLast?, AsksAsWord c) := by
  intro final
  have hfound (text : String) :
      t ∈ final.occurring text ↔ StandsWith HasBoundary t.pattern text.toList := by
    rw [mem_occurring_iff, and_iff_right (mem_triggers_foldl (mem_triggers_of_add hadd) hlater)]
  refine ⟨hfound, ?_⟩
  rw [← standsWith_boundary_everywhere_iff]
  simp only [hfound]
  constructor
  · intro h text
    simpa using h (String.ofList text)
  · intro h text
    exact h text.toList

/-- A phrase that ends in a symbol is found in front of a digit, since it is whole there. -/
theorem occurring_at_boundaries_symbol :
    let t : GlobalTrigger := ⟨" C++ ", ["CPP"], "C plus plus", "", .light⟩
    let later : List GlobalTrigger := [⟨"C", [], "C", "", .light⟩, ⟨"++", [], "", "", .light⟩]
    let engine : Text.Engine := fun _ => true
    (standard engine).add engine t = (.ok (), ⟨[.deepDive, t]⟩) ∧
      (∀ u ∈ later, u.phrase ≠ t.phrase) ∧
        t ∈ (later.foldl (offer engine) ⟨[.deepDive, t]⟩).occurring "xC++, C++11" := by
  intro t later engine
  have hpattern : t.pattern = ['C', '+', '+'] := by decide
  have hstandard : standard engine = ⟨[.deepDive]⟩ :=
    offer_of_ok (add_taken (by decide) rfl)
  have hadd : (standard engine).add engine t = (.ok (), ⟨[.deepDive, t]⟩) := by
    rw [hstandard]
    exact add_taken (by simp [hpattern]) rfl
  have hlater : ∀ u ∈ later, u.phrase ≠ t.phrase := by simp [later, t]
  obtain ⟨-, hwords⟩ := occurring_at_boundaries hadd later hlater
  rw [hpattern] at hwords
  have hends : AsksAsWord 'C' ∧ AsksAsWord '+' := by unfold AsksAsWord; decide
  have hwhole : StandsWith NotJoined ['C', '+', '+'] "xC++, C++11".toList := by
    refine ⟨"xC++, ".toList, "11".toList, by decide, ?_, ?_⟩
    · simp only [List.head?_cons, Option.mem_some_iff, forall_eq', NotJoined]
      decide
    · simp only [List.getLast?_cons_cons, List.getLast?_singleton, Option.mem_some_iff,
        forall_eq', NotJoined]
      decide
  exact ⟨hadd, hlater, (hwords.mpr (by simpa using hends) _).mpr hwhole⟩

/-- A phrase that ends in a superscript is missed where it stands between spaces, and
one that ends in a combining mark is found in front of a letter. -/
theorem occurring_at_boundaries_superscript :
    let area : GlobalTrigger := ⟨"m²", [], "Square metres", "", .light⟩
    let accent : GlobalTrigger := ⟨"e\u0301", [], "Accent", "", .light⟩
    let engine : Text.Engine := fun _ => true
    (empty.add engine area = (.ok (), ⟨[area]⟩) ∧ StandsWith NotJoined area.pattern "10 m² each".toList ∧
        area ∉ occurring ⟨[area]⟩ "10 m² each") ∧
      (empty.add engine accent = (.ok (), ⟨[accent]⟩) ∧
        ¬StandsWith NotJoined accent.pattern "e\u0301x".toList ∧
        accent ∈ occurring ⟨[accent]⟩ "e\u0301x") := by
  intro area accent engine
  have harea : area.pattern = ['m', '²'] := by decide +kernel
  have haccent : accent.pattern = ['e', '\u0301'] := by decide +kernel
  have hmark : Text.isWord '\u0301' = true := by decide +kernel
  refine ⟨⟨add_taken (by simp [harea]) rfl, ?_, by decide +kernel⟩,
    add_taken (by simp [haccent]) rfl, ?_, by decide +kernel⟩
  · rw [harea]
    refine ⟨"10 ".toList, " each".toList, by decide, ?_, ?_⟩
    · simp only [List.head?_cons, Option.mem_some_iff, forall_eq', NotJoined]
      decide
    · simp only [List.getLast?_cons_cons, List.getLast?_singleton, Option.mem_some_iff,
        forall_eq', NotJoined]
      decide +kernel
  · rw [haccent]
    intro ⟨before, after, he, _, hlast⟩
    -- the phrase is two of the three characters, and the middle one is no `e`
    match before, he with
    | [], he =>
      obtain rfl : after = ['x'] := by simpa using he.symm
      exact hlast '\u0301' rfl ⟨hmark, by decide⟩
    | [_], he => simp at he
    | _ :: _ :: _, he =>
      have hlen := congrArg List.length he
      simp only [List.length_append, List.length_cons, List.length_nil] at hlen
      have hthree : "e\u0301x".toList.length = 3 := by decide
      omega

end TriggerRegistry

end HoverTips
