import Mathlib.Data.List.Basic
import Mathlib.Data.List.Induction
import HoverTips.Proofs.Markdown.Pieces
import HoverTips.Proofs.Text.Fields
import HoverTips.Proofs.Tooltip.WholeWords

/-! # The sides of a code block

A code block leaves no trace in the prose, so what stands in front of it and what stands
behind it meet there. A break or the end of an element keeps them apart, and the end
of the code block is neither (`runTogether_iff`). Sides that are apart are read apart:
no word has characters of both, and a phrase is found in the whole exactly when it is
found on a side. -/

namespace HoverTips.Markdown

/-- The last character of one text and the first of the next are no white space. -/
def RunTogether (left right : List Char) : Prop :=
  ∃ c ∈ left.getLast?, ∃ d ∈ right.head?, Text.isSpace c = false ∧ Text.isSpace d = false

/-- A phrase with white space in it stands partly on the left and partly on the right: it
has white space of its own where the sides meet. -/
def StandsAcross (phrase left right : List Char) : Prop :=
  ∃ before front back after, phrase = front ++ back ∧ left = before ++ front ∧
    right = back ++ after ∧ front ≠ [] ∧ back ≠ [] ∧ ¬RunTogether front back ∧
      (∀ c ∈ phrase.head?, HasBoundary c before.getLast?) ∧
        ∀ c ∈ phrase.getLast?, HasBoundary c after.head?

/-- Whether an event outside of code leaves every prose as it is. -/
def Event.isSilent : Event → Bool
  | .text s => s.toList.isEmpty
  | .softBreak | .hardBreak | .stop _ => false
  | _ => true

/-- Of the events that are not silent the last one is a text that ends in a character. -/
def EndsInText (events : List Event) (c : Char) : Prop :=
  ∃ front s back, events = front ++ .text s :: back ∧ c ∈ s.toList.getLast? ∧
    ∀ e ∈ back, e.isSilent = true

/-- Of the events that are not silent the first one is a text that starts with a
character. -/
def StartsInText (events : List Event) (c : Char) : Prop :=
  ∃ front s back, events = front ++ .text s :: back ∧ c ∈ s.toList.head? ∧
    ∀ e ∈ front, e.isSilent = true

/-! ## What an event adds -/

theorem ne_of_isSpace {c d : Char} (hc : Text.isSpace c = false) (hd : Text.isSpace d = true) :
    c ≠ d := by
  intro he
  rw [he, hd] at hc
  cases hc

section addTo

variable {prose added : String} {events : List Event} {e : Event} {c d : Char}

theorem addTo_silent (h : e.isSilent = true) : e.addTo prose = prose := by
  cases e with
  | text s =>
    have hs : s = "" := by simpa [Event.isSilent] using h
    simp [Event.addTo, hs]
  | softBreak => cases h
  | hardBreak => cases h
  | stop _ => cases h
  | _ => rfl

theorem breakLine_eq (prose : String) :
    Extraction.breakLine prose =
      if prose.toList.getLast?.any (· != '\n') then prose ++ "\n" else prose := by
  unfold Extraction.breakLine
  split
  · rename_i h
    simp [h]
  · rename_i c h
    by_cases hc : c = '\n'
    · simp [h, hc]
    · simp [h, hc, String.push_eq_append]

/-- No break ends in a character that is no white space. -/
theorem getLast?_breakLine (hc : Text.isSpace c = false) :
    c ∉ (Extraction.breakLine prose).toList.getLast? := by
  have hne : c ≠ '\n' := ne_of_isSpace hc rfl
  intro h
  rw [breakLine_eq] at h
  split at h
  · simp [hne.symm] at h
  · rename_i hlast
    rw [Option.mem_def.mp h] at hlast
    simp [hne] at hlast

/-- Of the events that are not silent only a text ends the prose in a character that is
no white space. -/
theorem getLast?_addTo_iff (h : e.isSilent = false) (hc : Text.isSpace c = false) :
    c ∈ (e.addTo prose).toList.getLast? ↔ ∃ s, e = .text s ∧ c ∈ s.toList.getLast? := by
  cases e with
  | text s =>
    have hs : s.toList ≠ [] := by simpa [Event.isSilent] using h
    rw [Event.addTo, String.toList_append, List.getLast?_append, List.getLast?_eq_some_getLast hs]
    simp [List.getLast?_eq_some_getLast hs]
  | softBreak =>
    have hne : c ≠ ' ' := ne_of_isSpace hc rfl
    simp [Event.addTo, hne.symm]
  | hardBreak =>
    rw [Event.addTo]
    simpa using getLast?_breakLine hc
  | stop _ =>
    rw [Event.addTo]
    simpa using getLast?_breakLine hc
  | _ => cases h

/-- What an event that is not silent adds to prose that ends in a character that is no
white space, and when this starts with such a character. -/
theorem addTo_added (h : e.isSilent = false) (hd : d ∈ prose.toList.getLast?)
    (hspace : Text.isSpace d = false) :
    ∃ added : String, e.addTo prose = prose ++ added ∧ added.toList ≠ [] ∧
      ∀ c, Text.isSpace c = false →
        (c ∈ added.toList.head? ↔ ∃ s, e = .text s ∧ c ∈ s.toList.head?) := by
  have hbreak : Extraction.breakLine prose = prose ++ "\n" := by
    have hne : d ≠ '\n' := ne_of_isSpace hspace rfl
    rw [breakLine_eq, Option.mem_def.mp hd]
    simp [hne]
  cases e with
  | text s =>
    have hs : s.toList ≠ [] := by simpa [Event.isSilent] using h
    exact ⟨s, rfl, hs, by simp⟩
  | softBreak =>
    refine ⟨" ", String.push_eq_append _, by simp, fun c hc => ?_⟩
    have hne : c ≠ ' ' := ne_of_isSpace hc rfl
    simp [hne.symm]
  | hardBreak =>
    refine ⟨"\n", hbreak, by simp, fun c hc => ?_⟩
    have hne : c ≠ '\n' := ne_of_isSpace hc rfl
    simp [hne.symm]
  | stop _ =>
    refine ⟨"\n", hbreak, by simp, fun c hc => ?_⟩
    have hne : c ≠ '\n' := ne_of_isSpace hc rfl
    simp [hne.symm]
  | _ => cases h

theorem breakLine_append (prose : String) :
    ∃ added : String, Extraction.breakLine prose = prose ++ added := by
  rw [breakLine_eq]
  split
  · exact ⟨_, rfl⟩
  · exact ⟨"", by simp⟩

theorem addTo_append (prose : String) (e : Event) :
    ∃ added : String, e.addTo prose = prose ++ added := by
  cases e with
  | text s => exact ⟨s, rfl⟩
  | softBreak => exact ⟨" ", String.push_eq_append _⟩
  | hardBreak => exact breakLine_append prose
  | stop _ => exact breakLine_append prose
  | _ => exact ⟨"", by simp [Event.addTo]⟩

/-- Prose only grows. -/
theorem foldl_addTo_append (prose : String) (events : List Event) :
    ∃ added : String, events.foldl Event.addTo prose = prose ++ added := by
  induction events generalizing prose with
  | nil => exact ⟨"", by simp⟩
  | cons e events ih =>
    obtain ⟨first, hfirst⟩ := addTo_append prose e
    obtain ⟨rest, hrest⟩ := ih (prose ++ first)
    exact ⟨first ++ rest, by rw [List.foldl_cons, hfirst, hrest, String.append_assoc]⟩

/-! ## Where the sides meet -/

theorem endsInText_concat_iff :
    EndsInText (events ++ [e]) c ↔
      (∃ s, e = .text s ∧ c ∈ s.toList.getLast?) ∨ e.isSilent = true ∧ EndsInText events c := by
  constructor
  · intro ⟨front, s, back, he, hs, hback⟩
    rcases List.eq_nil_or_concat back with rfl | ⟨back, x, rfl⟩
    · obtain ⟨-, hlast⟩ := List.append_inj' he rfl
      exact .inl ⟨s, (List.cons.inj hlast).1, hs⟩
    · rw [List.concat_eq_append] at he hback
      rw [← List.cons_append, ← List.append_assoc] at he
      obtain ⟨hfront, hlast⟩ := List.append_inj' he rfl
      obtain rfl : e = x := (List.cons.inj hlast).1
      rw [List.forall_mem_append] at hback
      exact .inr ⟨hback.2 e (by simp), front, s, back, hfront, hs, hback.1⟩
  · intro h
    cases h with
    | inl h =>
      obtain ⟨s, rfl, hs⟩ := h
      exact ⟨events, s, [], rfl, hs, by simp⟩
    | inr h =>
      obtain ⟨hsilent, front, s, back, rfl, hs, hback⟩ := h
      refine ⟨front, s, back ++ [e], by simp, hs, ?_⟩
      rw [List.forall_mem_append]
      exact ⟨hback, by simpa using hsilent⟩

theorem startsInText_cons_iff :
    StartsInText (e :: events) c ↔
      (∃ s, e = .text s ∧ c ∈ s.toList.head?) ∨ e.isSilent = true ∧ StartsInText events c := by
  constructor
  · intro ⟨front, s, back, he, hs, hfront⟩
    cases front with
    | nil => exact .inl ⟨s, (List.cons.inj he).1, hs⟩
    | cons x front =>
      obtain ⟨rfl, hrest⟩ := List.cons.inj he
      rw [List.forall_mem_cons] at hfront
      exact .inr ⟨hfront.1, front, s, back, hrest, hs, hfront.2⟩
  · intro h
    cases h with
    | inl h =>
      obtain ⟨s, rfl, hs⟩ := h
      exact ⟨[], s, events, rfl, hs, by simp⟩
    | inr h =>
      obtain ⟨hsilent, front, s, back, rfl, hs, hfront⟩ := h
      exact ⟨e :: front, s, back, rfl, hs, List.forall_mem_cons.mpr ⟨hsilent, hfront⟩⟩

theorem not_text_of_silent {p : String → Prop} (h : e.isSilent = true)
    (hp : ∀ s : String, p s → s.toList ≠ []) : ¬∃ s, e = .text s ∧ p s := by
  intro ⟨s, he, hs⟩
  rw [he] at h
  exact hp s hs (by simpa [Event.isSilent] using h)

theorem getLast?_proseOf_iff (hc : Text.isSpace c = false) :
    c ∈ (proseOf events).toList.getLast? ↔ EndsInText events c := by
  induction events using List.reverseRecOn with
  | nil => simp [proseOf, EndsInText]
  | append_singleton events e ih =>
    rw [endsInText_concat_iff, proseOf, List.foldl_append, ← proseOf]
    cases h : e.isSilent with
    | true =>
      have hno : ¬∃ s, e = .text s ∧ c ∈ s.toList.getLast? :=
        not_text_of_silent h fun s hs he => by simp [he] at hs
      rw [or_iff_right hno, and_iff_right rfl, List.foldl_cons, List.foldl_nil, addTo_silent h, ih]
    | false => simp [getLast?_addTo_iff h hc]

theorem head?_added_iff (hd : d ∈ prose.toList.getLast?) (hspace : Text.isSpace d = false)
    (hc : Text.isSpace c = false) (hadded : events.foldl Event.addTo prose = prose ++ added) :
    c ∈ added.toList.head? ↔ StartsInText events c := by
  induction events with
  | nil =>
    have hempty : added = "" := by simpa using congrArg String.toList hadded
    simp [hempty, StartsInText]
  | cons e events ih =>
    rw [List.foldl_cons] at hadded
    rw [startsInText_cons_iff]
    cases h : e.isSilent with
    | true =>
      have hno : ¬∃ s, e = .text s ∧ c ∈ s.toList.head? :=
        not_text_of_silent h fun s hs he => by simp [he] at hs
      rw [addTo_silent h] at hadded
      rw [or_iff_right hno, and_iff_right rfl, ih hadded]
    | false =>
      obtain ⟨first, hfirst, hne, hhead⟩ := addTo_added h hd hspace
      obtain ⟨rest, hrest⟩ := foldl_addTo_append (prose ++ first) events
      rw [hfirst, hrest, String.append_assoc, String.append_right_inj] at hadded
      rw [← hadded, String.toList_append, List.head?_append, List.head?_eq_some_head hne,
        Option.some_or, ← List.head?_eq_some_head hne, hhead c hc]
      simp

end addTo

/-- The sides run together exactly when the last event in front and the first event
behind that are not silent are texts, with no white space where they meet. -/
theorem runTogether_iff {before after : List Event} {added : String}
    (hadded : after.foldl Event.addTo (proseOf before) = proseOf before ++ added) :
    RunTogether (proseOf before).toList added.toList ↔
      ∃ c d, Text.isSpace c = false ∧ Text.isSpace d = false ∧ EndsInText before c ∧
        StartsInText after d := by
  constructor
  · intro ⟨c, hc, d, hd, hcspace, hdspace⟩
    exact ⟨c, d, hcspace, hdspace, (getLast?_proseOf_iff hcspace).mp hc,
      (head?_added_iff hc hcspace hdspace hadded).mp hd⟩
  · intro ⟨c, d, hcspace, hdspace, hc, hd⟩
    have hlast := (getLast?_proseOf_iff hcspace).mpr hc
    exact ⟨c, hlast, d, (head?_added_iff hlast hcspace hdspace hadded).mpr hd, hcspace, hdspace⟩

/-! ## Reading sides apart -/

section apart

variable {left right : List Char}

/-- What stands in the whole stands on one side, or partly on each. -/
theorem split_sides {before word after : List Char} (h : left ++ right = before ++ word ++ after) :
    (∃ m, left = before ++ word ++ m ∧ after = m ++ right) ∨
      (∃ m, right = m ++ word ++ after ∧ before = left ++ m) ∨
        ∃ front back, word = front ++ back ∧ left = before ++ front ∧ right = back ++ after ∧
          front ≠ [] ∧ back ≠ [] := by
  rcases List.append_eq_append_iff.mp h with ⟨back, hfront, hright⟩ | ⟨m, hleft, hafter⟩
  · rcases List.append_eq_append_iff.mp hfront with ⟨front, hleft, hword⟩ | ⟨m, hbefore, hback⟩
    · by_cases hnofront : front = []
      · exact .inr (.inl ⟨[], by simp [hright, hword, hnofront], by simp [hleft, hnofront]⟩)
      · by_cases hnoback : back = []
        · exact .inl ⟨[], by simp [hleft, hword, hnoback], by simp [hright, hnoback]⟩
        · exact .inr (.inr ⟨front, back, hword, hleft, hright, hnofront, hnoback⟩)
    · exact .inr (.inl ⟨m, by rw [hright, hback], hbefore⟩)
  · exact .inl ⟨m, hleft, hafter⟩

theorem runTogether_of_solid {front back : List Char} (hfront : front ≠ []) (hback : back ≠ [])
    (hsolid : ∀ c ∈ front ++ back, Text.isSpace c = false) : RunTogether front back :=
  ⟨front.getLast hfront, List.getLast?_eq_some_getLast hfront, back.head hback,
    List.head?_eq_some_head hback,
    hsolid _ (List.mem_append_left _ (List.getLast_mem hfront)),
    hsolid _ (List.mem_append_right _ (List.head_mem hback))⟩

/-- Parts of the sides that meet run together as the sides do. -/
theorem runTogether_parts {before front back after : List Char} (hfront : front ≠ [])
    (hback : back ≠ []) :
    RunTogether (before ++ front) (back ++ after) ↔ RunTogether front back := by
  rw [RunTogether, RunTogether, List.getLast?_append_of_ne_nil _ hfront,
    List.head?_append_of_ne_nil _ hback]

theorem not_standsAcross_of_solid {word : List Char}
    (hword : ∀ c ∈ word, Text.isSpace c = false) : ¬StandsAcross word left right := by
  rintro ⟨before, front, back, after, rfl, -, -, hfront, hback, happart, -⟩
  exact happart (runTogether_of_solid hfront hback hword)

/-- What follows a word on the left is a word character, or none, as it is in the whole. -/
theorem behind_left (happart : ¬RunTogether left right) {front m : List Char} {c : Char}
    (hleft : left = front ++ m) (hc : c ∈ front.getLast?) (hspace : Text.isSpace c = false) :
    (m ++ right).head?.any Text.isWord = m.head?.any Text.isWord := by
  cases m with
  | cons d m => rfl
  | nil =>
    rw [List.append_nil] at hleft
    cases hd : right.head? with
    | none => simp [hd]
    | some d =>
      have hdspace : Text.isSpace d = true := by
        by_contra hno
        exact happart ⟨c, by rwa [hleft], d, hd, hspace, by simpa using hno⟩
      simp [hd, Text.isWord_of_isSpace hdspace]

theorem before_right (happart : ¬RunTogether left right) {m back : List Char} {c : Char}
    (hright : right = m ++ back) (hc : c ∈ back.head?) (hspace : Text.isSpace c = false) :
    (left ++ m).getLast?.any Text.isWord = m.getLast?.any Text.isWord := by
  rcases List.eq_nil_or_concat m with rfl | ⟨m, d, rfl⟩
  · rw [List.nil_append] at hright
    cases hd : left.getLast? with
    | none => simp [hd]
    | some d =>
      have hdspace : Text.isSpace d = true := by
        by_contra hno
        exact happart ⟨d, hd, c, by rwa [hright], by simpa using hno, hspace⟩
      simp [hd, Text.isWord_of_isSpace hdspace]
  · simp

theorem hasBoundary_congr {c : Char} {m n : Option Char}
    (h : m.any Text.isWord = n.any Text.isWord) :
    HasBoundary c m ↔ HasBoundary c n := by
  rw [HasBoundary, HasBoundary, h]

/-- A phrase that neither starts nor ends in white space is found in the whole exactly when
it is found on a side or stands across. -/
theorem standsWith_sides_iff (happart : ¬RunTogether left right) {word : List Char}
    (hstarts : ∀ c ∈ word.head?, Text.isSpace c = false)
    (hstops : ∀ c ∈ word.getLast?, Text.isSpace c = false) :
    StandsWith HasBoundary word (left ++ right) ↔
      StandsWith HasBoundary word left ∨ StandsWith HasBoundary word right ∨
        StandsAcross word left right := by
  have hback {before m : List Char} (hleft : left = before ++ word ++ m) :
      (∀ c ∈ word.getLast?, HasBoundary c (m ++ right).head?) ↔
        ∀ c ∈ word.getLast?, HasBoundary c m.head? := by
    refine forall₂_congr fun c hc => hasBoundary_congr (behind_left happart hleft (c := c) ?_ ?_)
    · simp [Option.mem_def.mp hc]
    · exact hstops c hc
  have hfront {m after : List Char} (hright : right = m ++ (word ++ after)) :
      (∀ c ∈ word.head?, HasBoundary c (left ++ m).getLast?) ↔
        ∀ c ∈ word.head?, HasBoundary c m.getLast? := by
    refine forall₂_congr fun c hc => hasBoundary_congr (before_right happart hright (c := c) ?_ ?_)
    · simp [Option.mem_def.mp hc]
    · exact hstarts c hc
  constructor
  · intro ⟨before, after, h, hhead, hlast⟩
    rcases split_sides h with
      ⟨m, hleft, rfl⟩ | ⟨m, hright, rfl⟩ | ⟨front, back, hword, hleft, hright, hf, hb⟩
    · exact .inl ⟨before, m, hleft, hhead, (hback hleft).mp hlast⟩
    · exact .inr (.inl ⟨m, after, hright, (hfront (by simpa using hright)).mp hhead, hlast⟩)
    · rw [hleft, hright, runTogether_parts hf hb] at happart
      exact .inr (.inr ⟨before, front, back, after, hword, hleft, hright, hf, hb, happart, hhead,
        hlast⟩)
  · rintro (⟨before, m, hleft, hhead, hlast⟩ | ⟨m, after, hright, hhead, hlast⟩ |
      ⟨before, front, back, after, hword, hleft, hright, -, -, -, hhead, hlast⟩)
    · exact ⟨before, m ++ right, by simp [hleft], hhead, (hback hleft).mpr hlast⟩
    · exact ⟨left ++ m, after, by simp [hright], (hfront (by simpa using hright)).mpr hhead, hlast⟩
    · exact ⟨before, after, by simp [hword, hleft, hright], hhead, hlast⟩

/-- No word has characters of both sides. -/
theorem isRun_sides (happart : ¬RunTogether left right) {offset : Nat} {word : List Char}
    (h : Text.IsRun Text.isWord (left ++ right) offset word) :
    offset + Text.byteLength word ≤ Text.byteLength left ∨ Text.byteLength left ≤ offset := by
  obtain ⟨before, after, h, rfl, _, hword, _⟩ := h
  have hnospace : ∀ c ∈ word, Text.isSpace c = false := by
    intro c hc
    by_contra hspace
    have := Text.isWord_of_isSpace (by simpa using hspace)
    rw [hword c hc] at this
    cases this
  rcases split_sides h with
    ⟨m, hleft, _⟩ | ⟨m, _, hbefore⟩ | ⟨front, back, rfl, hleft, hright, hf, hb⟩
  · left
    simp [hleft]
  · right
    simp [hbefore]
  · rw [hleft, hright, runTogether_parts hf hb] at happart
    exact absurd (runTogether_of_solid hf hb hnospace) happart

end apart

/-- Phrases have no white space at their ends, so this is so for all of them. -/
theorem mem_occurring_sides_iff {r : TriggerRegistry} {t : GlobalTrigger} {left right : String}
    (happart : ¬RunTogether left.toList right.toList) :
    t ∈ r.occurring (left ++ right) ↔
      t ∈ r.occurring left ∨ t ∈ r.occurring right ∨
        t ∈ r.triggers ∧ StandsAcross t.pattern left.toList right.toList := by
  obtain ⟨_, htrims⟩ := Text.trim_trims t.phrase.toList
  rw [TriggerRegistry.mem_occurring_iff, TriggerRegistry.mem_occurring_iff,
    TriggerRegistry.mem_occurring_iff, String.toList_append, GlobalTrigger.pattern,
    standsWith_sides_iff happart htrims.starts htrims.stops, and_or_left, and_or_left]

/-! ## The sides of a block -/

theorem outsideOf_around {before after : List Piece} {code : Piece} (hcode : code.outside? = none) :
    outsideOf (before ++ code :: after) = outsideOf before ++ outsideOf after := by
  simp [outsideOf, hcode]

/-- The prose of a page with a code block is the prose in front of the block, and some
behind it. The two run together exactly when the last event in front of the block that
is not silent is a text, the first one behind it is a text, and no white space stands
where they meet. If they do not, no word of the prose is made of text from both sides.
A phrase is then found in the prose exactly when it is found on one of the sides or
stands across them, with white space of its own where they meet. So a phrase without
white space is found exactly when it is found on a side. -/
theorem sides_of_code (page : String) (before after : List Piece) {code : Piece}
    (hcode : code.outside? = none) :
    let left := (extract page (eventsOf before)).prose
    let whole := (extract page (eventsOf (before ++ code :: after))).prose
    ∃ right, whole = left ++ right ∧
      (RunTogether left.toList right.toList ↔
        ∃ c d, Text.isSpace c = false ∧ Text.isSpace d = false ∧
          EndsInText (outsideOf before) c ∧ StartsInText (outsideOf after) d) ∧
      (¬RunTogether left.toList right.toList →
        (∀ offset word, Text.IsRun Text.isWord whole.toList offset word →
          offset + Text.byteLength word ≤ Text.byteLength left.toList ∨
            Text.byteLength left.toList ≤ offset) ∧
        ∀ (r : TriggerRegistry) (t : GlobalTrigger),
          (t ∈ r.occurring whole ↔ t ∈ r.occurring left ∨ t ∈ r.occurring right ∨
            t ∈ r.triggers ∧ StandsAcross t.pattern left.toList right.toList) ∧
          ((∀ c ∈ t.pattern, Text.isSpace c = false) →
            (t ∈ r.occurring whole ↔ t ∈ r.occurring left ∨ t ∈ r.occurring right))) := by
  intro left whole
  have hleft : left = proseOf (outsideOf before) := by simp only [left, extract_eventsOf]
  have hwhole : whole = (outsideOf after).foldl Event.addTo left := by
    simp only [whole, extract_eventsOf, outsideOf_around hcode, proseOf, List.foldl_append]
    rw [hleft, proseOf]
  obtain ⟨right, hright⟩ := foldl_addTo_append left (outsideOf after)
  rw [hright] at hwhole
  refine ⟨right, hwhole, ?_, ?_⟩
  · rw [hleft] at hright ⊢
    exact runTogether_iff hright
  · intro happart
    rw [hwhole, String.toList_append]
    refine ⟨fun offset word => isRun_sides happart, ?_⟩
    intro r t
    have hfound := mem_occurring_sides_iff happart (r := r) (t := t)
    refine ⟨hfound, fun hpattern => ?_⟩
    rw [hfound, or_iff_left (not_standsAcross_of_solid hpattern ∘ And.right)]

/-- The end of a paragraph keeps the phrase in it from the text behind the block. -/
theorem sides_of_code_paragraphs :
    let before : List Piece :=
      [.outside (.start "Paragraph") rfl, .outside (.text "Use a DD") rfl,
        .outside (.stop "Paragraph") rfl]
    let after : List Piece :=
      [.outside (.start "Paragraph") rfl, .outside (.text "Then") rfl,
        .outside (.stop "Paragraph") rfl]
    let code : Piece := .fenced "js" ["x\n"]
    code.outside? = none ∧
      ¬RunTogether (extract "a.md" (eventsOf before)).prose.toList "Then\n".toList ∧
      GlobalTrigger.deepDive ∈ (TriggerRegistry.standard fun _ => true).occurring
        (extract "a.md" (eventsOf (before ++ code :: after))).prose := by
  intro before after code
  have hleft : (extract "a.md" (eventsOf before)).prose = "Use a DD\n" := by decide
  have hwhole : (extract "a.md" (eventsOf (before ++ code :: after))).prose =
      "Use a DD\n" ++ "Then\n" := by decide
  have happart : ¬RunTogether "Use a DD\n".toList "Then\n".toList := by
    intro ⟨c, hc, _, _, hspace, _⟩
    obtain rfl : '\n' = c := by simpa using hc
    cases hspace
  obtain ⟨right, hright, -, hfound⟩ := @sides_of_code "a.md" before after code rfl
  rw [hleft] at hright hfound
  rw [hwhole, String.append_right_inj] at hright
  rw [← hright, hwhole] at hfound
  have hdeepDive : GlobalTrigger.deepDive.pattern = ['D', 'D'] := rfl
  have hpattern : ∀ c ∈ GlobalTrigger.deepDive.pattern, Text.isSpace c = false := by
    simp [hdeepDive, Text.isSpace]
  refine ⟨rfl, by rwa [hleft], ?_⟩
  rw [hwhole, ((hfound happart).2 _ _).2 hpattern]
  exact .inl (by decide)

/-- In an item of a tight list nothing ends in front of the block: the phrase in front
of it is read as one word with what stands behind it. -/
theorem sides_of_code_tight :
    let before : List Piece :=
      [.outside (.start "List(true)") rfl, .outside (.start "Item") rfl,
        .outside (.text "DD") rfl]
    let after : List Piece :=
      [.outside (.text "Then") rfl, .outside (.stop "Item") rfl,
        .outside (.stop "List(true)") rfl]
    let whole := (extract "a.md" (eventsOf (before ++ .fenced "js" ["x\n"] :: after))).prose
    (extract "a.md" (eventsOf before)).prose = "DD" ∧ whole = "DD" ++ "Then\n" ∧
      RunTogether "DD".toList "Then\n".toList ∧
      GlobalTrigger.deepDive ∈ (TriggerRegistry.standard fun _ => true).occurring "DD" ∧
      GlobalTrigger.deepDive ∉ (TriggerRegistry.standard fun _ => true).occurring whole := by
  intro before after whole
  have hwhole : whole = "DD" ++ "Then\n" := by decide
  refine ⟨by decide, hwhole, ⟨'D', rfl, 'T', rfl, rfl, rfl⟩, by decide, ?_⟩
  rw [hwhole]
  decide

end HoverTips.Markdown
