import HoverTips.Block.Wrapped
import HoverTips.Proofs.Text.Boundary

/-! # The window of a wrapped block

Spans of the wrapped text that lie in the window are spans of the source, moved
by the wrapper's length; boundaries of characters are the same on both sides. A
report about a single place covers the character before it or, at the very
start, the one behind it, so it covers something exactly when the place is in
the window (`reportSpan?_place`). -/

namespace HoverTips.Wrapped

open Text (byteLength isBoundary)

variable {w : Wrapped}

theorem toSource?_eq_some_iff {s t : Span} :
    w.toSource? s = some t ↔
      s.start < s.stop ∧ wrapperOffset ≤ s.start ∧ s.stop ≤ wrapperOffset + byteLength w.source ∧
        t = ⟨s.start - wrapperOffset, s.stop - wrapperOffset⟩ := by
  rw [toSource?, Option.ite_none_left_eq_some, Option.some.injEq]
  simp only [window]
  constructor
  · rintro ⟨hin, rfl⟩
    exact ⟨by omega, by omega, by omega, rfl⟩
  · rintro ⟨hlt, hlo, hhi, rfl⟩
    exact ⟨by omega, rfl⟩

/-- Two spans of the wrapped text that stand for one span of the source are one. -/
theorem toSource?_injective {s t u : Span} (hs : w.toSource? s = some u)
    (ht : w.toSource? t = some u) : s = t := by
  obtain ⟨_, hlo, hhi, rfl⟩ := toSource?_eq_some_iff.mp hs
  obtain ⟨_, hlo', hhi', he⟩ := toSource?_eq_some_iff.mp ht
  obtain ⟨h1, h2⟩ := Span.mk.inj he
  cases s
  cases t
  simp only at *
  congr 1 <;> omega

/-- Moving a span from the wrapped text to the source takes nothing off it but the
wrapper's length. -/
theorem toSource?_exact {s t : Span} (h : w.toSource? s = some t) :
    s = ⟨wrapperOffset + t.start, wrapperOffset + t.stop⟩ := by
  obtain ⟨_, hlo, _, rfl⟩ := toSource?_eq_some_iff.mp h
  cases s
  simp only [Span.mk.injEq] at *
  omega

theorem isBoundary_text {n : Nat} (hlo : wrapperOffset ≤ n)
    (hhi : n ≤ wrapperOffset + byteLength w.source) (h : isBoundary w.text n = true) :
    isBoundary w.source (n - wrapperOffset) = true := by
  obtain ⟨before, after, htext, rfl⟩ := Text.isBoundary_iff.mp h
  rw [w.text_eq, List.append_assoc] at htext
  obtain ⟨front, rfl, hrest⟩ := Text.split_of_le htext (by rwa [byteLength_wrapperHead])
  rw [Text.byteLength_append, byteLength_wrapperHead] at hhi ⊢
  obtain ⟨back, hsource, _⟩ := Text.split_of_le hrest.symm (by omega)
  rw [hsource, Nat.add_sub_cancel_left]
  exact Text.isBoundary_append front back

theorem isBoundary_window_start : isBoundary w.text w.window.start = true := by
  rw [w.text_eq, List.append_assoc, window, ← byteLength_wrapperHead]
  exact Text.isBoundary_append _ _

theorem isBoundary_window_stop : isBoundary w.text w.window.stop = true := by
  rw [w.text_eq, window, ← byteLength_wrapperHead, ← Text.byteLength_append]
  exact Text.isBoundary_append _ _

/-- A nonempty span of the wrapped text in the window holds a piece of the
source. -/
theorem piece_of_window {s : Span} (hlt : s.start < s.stop) (hlo : wrapperOffset ≤ s.start)
    (hhi : s.stop ≤ wrapperOffset + byteLength w.source)
    (hs : isBoundary w.text s.start = true) (he : isBoundary w.text s.stop = true) :
    ∃ before piece after, w.source = before ++ piece ++ after ∧ piece ≠ [] ∧
      s = ⟨wrapperOffset + byteLength before,
        wrapperOffset + byteLength before + byteLength piece⟩ := by
  obtain ⟨before, piece, after, hcs, hb, hp⟩ := Text.split_of_boundaries
    (Nat.sub_le_sub_right (Nat.le_of_lt hlt) _)
    (isBoundary_text hlo (by omega) hs) (isBoundary_text (by omega) hhi he)
  refine ⟨before, piece, after, hcs, Text.byteLength_pos_iff.mp (by omega), ?_⟩
  cases s
  simp only [Span.mk.injEq] at *
  omega

theorem cut_text {before piece after : List Char} (h : w.source = before ++ piece ++ after) :
    Text.cut w.text (wrapperOffset + byteLength before)
      (wrapperOffset + byteLength before + byteLength piece) = .ok piece := by
  have htext : w.text = wrapperHead ++ before ++ piece ++ (after ++ wrapperTail) := by
    rw [w.text_eq, h]
    simp
  rw [htext, ← byteLength_wrapperHead, ← Text.byteLength_append]
  exact Text.cut_append _ _ _

theorem toSource?_piece {before piece after : List Char}
    (h : w.source = before ++ piece ++ after) (hne : piece ≠ []) :
    w.toSource? ⟨wrapperOffset + byteLength before,
        wrapperOffset + byteLength before + byteLength piece⟩ =
      some ⟨byteLength before, byteLength before + byteLength piece⟩ := by
  have hpos := Text.byteLength_pos_iff.mpr hne
  rw [toSource?_eq_some_iff, h, Text.byteLength_append, Text.byteLength_append]
  simp only
  refine ⟨by omega, by omega, by omega, ?_⟩
  congr 1 <;> omega

/-- A span of the wrapped text in the window selects from the source what it
selects from the wrapped text. -/
theorem select?_toSource? {s t : Span} (h : w.toSource? s = some t)
    (hs : isBoundary w.text s.start = true) (he : isBoundary w.text s.stop = true) :
    ∃ piece, t.select? w.source = some piece := by
  obtain ⟨hlt, hlo, hhi, _⟩ := toSource?_eq_some_iff.mp h
  obtain ⟨before, piece, after, hcs, hne, rfl⟩ := piece_of_window hlt hlo hhi hs he
  obtain rfl := Option.some.inj ((toSource?_piece hcs hne).symm.trans h)
  exact ⟨piece, Span.select?_eq_some_iff.mpr ⟨hne, before, after, hcs, rfl⟩⟩

/-- What a span of the source selects, the span of the wrapped text that it stands
for selects as well. -/
theorem cut_of_toSource? {s t : Span} {piece : List Char} (h : w.toSource? s = some t)
    (hp : t.select? w.source = some piece) : Text.cut w.text s.start s.stop = .ok piece := by
  obtain ⟨hne, before, after, hcs, rfl⟩ := Span.select?_eq_some_iff.mp hp
  obtain rfl := toSource?_injective h (toSource?_piece hcs hne)
  exact cut_text hcs

/-! ## Reports about a place -/

theorem reportSpan?_of_lt {s : Span} (h : s.start < s.stop) : w.reportSpan? s = w.toSource? s := by
  rw [reportSpan?, if_pos h]

theorem characterBefore?_eq {before after : List Char} (h : w.text = before ++ after) :
    w.characterBefore? (byteLength before) =
      before.getLast?.map fun c => ⟨byteLength before - c.utf8Size, byteLength before⟩ := by
  rw [characterBefore?, h, Text.takeBytes?_append]

theorem characterAfter?_eq {before after : List Char} (h : w.text = before ++ after) :
    w.characterAfter? (byteLength before) =
      after.head?.map fun c => ⟨byteLength before, byteLength before + c.utf8Size⟩ := by
  rw [characterAfter?, h, Text.dropBytes?_append]

/-- The character before a place ends there, and its span holds it alone. -/
theorem cut_characterBefore? {n : Nat} {s : Span} (h : w.characterBefore? n = some s) :
    ∃ c, Text.cut w.text s.start s.stop = .ok [c] ∧ s.start + c.utf8Size = n ∧ s.stop = n := by
  unfold characterBefore? at h
  split at h
  · rename_i before hbefore
    obtain ⟨after, htext, rfl⟩ := Text.takeBytes?_eq_some_iff.mp hbefore
    obtain ⟨c, hc, rfl⟩ := Option.map_eq_some_iff.mp h
    obtain ⟨front, rfl⟩ := List.getLast?_eq_some_iff.mp hc
    rw [htext, Text.byteLength_append, Text.byteLength_cons, Text.byteLength_nil, Nat.add_zero,
      Nat.add_sub_cancel]
    exact ⟨c, by simpa using Text.cut_append front [c] after, rfl, rfl⟩
  · cases h

/-- The character behind a place starts there, and its span holds it alone. -/
theorem cut_characterAfter? {n : Nat} {s : Span} (h : w.characterAfter? n = some s) :
    ∃ c, Text.cut w.text s.start s.stop = .ok [c] ∧ s.start = n ∧ s.stop = n + c.utf8Size := by
  unfold characterAfter? at h
  split at h
  · rename_i after hafter
    obtain ⟨before, htext, rfl⟩ := Text.dropBytes?_eq_some_iff.mp hafter
    obtain ⟨c, hc, rfl⟩ := Option.map_eq_some_iff.mp h
    obtain ⟨rest, rfl⟩ := List.head?_eq_some_iff.mp hc
    rw [htext]
    exact ⟨c, by simpa using Text.cut_append before [c] rest, rfl, rfl⟩
  · cases h

/-- The character before a place outside the window, or at its start, is the
wrapper's. -/
theorem toSource?_before_eq_none {before after : List Char} (h : w.text = before ++ after)
    (hout : byteLength before ≤ wrapperOffset ∨
      wrapperOffset + byteLength w.source < byteLength before) :
    (w.characterBefore? (byteLength before)).bind w.toSource? = none := by
  rw [characterBefore?_eq h]
  cases before.getLast? with
  | none => rfl
  | some c =>
    have hc := c.utf8Size_pos
    rw [Option.map_some, Option.bind_some, Option.eq_none_iff_forall_ne_some]
    intro t ht
    obtain ⟨hlt, hlo, hhi, _⟩ := toSource?_eq_some_iff.mp ht
    simp only at hlt hlo hhi
    omega

theorem toSource?_after_eq_none {before after : List Char} (h : w.text = before ++ after)
    (hout : byteLength before < wrapperOffset ∨
      wrapperOffset + byteLength w.source < byteLength before) :
    (w.characterAfter? (byteLength before)).bind w.toSource? = none := by
  rw [characterAfter?_eq h]
  cases after.head? with
  | none => rfl
  | some c =>
    have hc := c.utf8Size_pos
    rw [Option.map_some, Option.bind_some, Option.eq_none_iff_forall_ne_some]
    intro t ht
    obtain ⟨hlt, hlo, hhi, _⟩ := toSource?_eq_some_iff.mp ht
    simp only at hlt hlo hhi
    omega

/-- A report about a place outside the window covers nothing. -/
theorem reportSpan?_outside {s : Span} (hs : s.stop ≤ s.start)
    (hb : isBoundary w.text s.start = true)
    (hout : s.start < wrapperOffset ∨ wrapperOffset + byteLength w.source < s.start) :
    w.reportSpan? s = none := by
  obtain ⟨before, after, htext, hlen⟩ := Text.isBoundary_iff.mp hb
  rw [reportSpan?, if_neg (Nat.not_lt.mpr hs), ← hlen,
    toSource?_before_eq_none htext (by omega), toSource?_after_eq_none htext (by omega)]
  rfl

/-- At the start of the window, a report covers the first character. -/
theorem reportSpan?_start {s : Span} {c : Char} {cs : List Char} (hs : s.stop ≤ s.start)
    (hstart : s.start = wrapperOffset) (hsource : w.source = c :: cs) :
    w.reportSpan? s = some ⟨0, c.utf8Size⟩ := by
  have hc := c.utf8Size_pos
  have htext : w.text = wrapperHead ++ (c :: (cs ++ wrapperTail)) := by
    rw [w.text_eq, hsource]
    simp
  rw [reportSpan?, if_neg (Nat.not_lt.mpr hs), hstart, ← byteLength_wrapperHead,
    toSource?_before_eq_none htext (by rw [byteLength_wrapperHead]; omega),
    characterAfter?_eq htext, Option.none_or]
  simp only [List.head?_cons, Option.map_some, Option.bind_some, toSource?_eq_some_iff]
  rw [byteLength_wrapperHead, hsource, Text.byteLength_cons]
  refine ⟨by omega, by omega, by omega, ?_⟩
  congr 1
  omega

/-- Inside the window, a report covers the character before its place. -/
theorem reportSpan?_inside {s : Span} {front back : List Char} {c : Char}
    (hs : s.stop ≤ s.start) (hsource : w.source = front ++ c :: back)
    (hstart : s.start = wrapperOffset + byteLength front + c.utf8Size) :
    w.reportSpan? s = some ⟨byteLength front, byteLength front + c.utf8Size⟩ := by
  have hc := c.utf8Size_pos
  have htext : w.text = (wrapperHead ++ front ++ [c]) ++ (back ++ wrapperTail) := by
    rw [w.text_eq, hsource]
    simp
  have hlen : byteLength (wrapperHead ++ front ++ [c]) = s.start := by
    rw [hstart]
    simp [byteLength_wrapperHead, Nat.add_assoc]
  have hin : w.toSource? ⟨s.start - c.utf8Size, s.start⟩ =
      some ⟨byteLength front, byteLength front + c.utf8Size⟩ := by
    rw [toSource?_eq_some_iff, hsource, hstart, Text.byteLength_append, Text.byteLength_cons]
    simp only
    refine ⟨by omega, by omega, by omega, ?_⟩
    congr 1 <;> omega
  rw [reportSpan?, if_neg (Nat.not_lt.mpr hs), ← hlen, characterBefore?_eq htext, hlen]
  simp [hin]

/-- A report about a place covers one character of the source next to it, if the
place is in the window, and nothing otherwise. -/
theorem reportSpan?_place {s : Span} (hne : w.source ≠ []) (hs : s.stop ≤ s.start)
    (hb : isBoundary w.text s.start = true) (hlo : wrapperOffset ≤ s.start)
    (hhi : s.start ≤ wrapperOffset + byteLength w.source) :
    ∃ before c after, w.source = before ++ c :: after ∧
      w.reportSpan? s = some ⟨byteLength before, byteLength before + c.utf8Size⟩ ∧
      (byteLength before + c.utf8Size = s.start - wrapperOffset ∨
        byteLength before = s.start - wrapperOffset) := by
  obtain ⟨before, after, hsource, hlen⟩ := Text.isBoundary_iff.mp (isBoundary_text hlo hhi hb)
  rcases List.eq_nil_or_concat before with rfl | ⟨front, c, rfl⟩
  · obtain ⟨c, cs, hcs⟩ := List.exists_cons_of_ne_nil hne
    rw [Text.byteLength_nil] at hlen
    exact ⟨[], c, cs, hcs, by simpa using reportSpan?_start hs (by omega) hcs, .inr hlen⟩
  · rw [List.concat_eq_append, List.append_assoc, List.singleton_append] at hsource
    rw [List.concat_eq_append, Text.byteLength_append, Text.byteLength_cons, Text.byteLength_nil] at hlen
    exact ⟨front, c, after, hsource, reportSpan?_inside hs hsource (by omega), .inl (by omega)⟩

/-! ## Reports about a span -/

/-- A span of the wrapped text lies in the source, be it empty or not. -/
structure Locates (w : Wrapped) (s : Span) : Prop where
  ordered : s.start ≤ s.stop
  starts : wrapperOffset ≤ s.start
  stops : s.stop ≤ wrapperOffset + byteLength w.source

/-- What a report about a span of the wrapped text covers of the source: the same
span, or one character next to it if the span is a single place. -/
inductive Covers (w : Wrapped) : Span → Span → Prop
  | span {before piece after : List Char} (h : w.source = before ++ piece ++ after)
      (hne : piece ≠ []) :
      Covers w
        ⟨wrapperOffset + byteLength before, wrapperOffset + byteLength before + byteLength piece⟩
        ⟨byteLength before, byteLength before + byteLength piece⟩
  | place {before after : List Char} {c : Char} {offset : Nat}
      (h : w.source = before ++ c :: after)
      (hnext : offset = wrapperOffset + byteLength before ∨
        offset = wrapperOffset + byteLength before + c.utf8Size) :
      Covers w ⟨offset, offset⟩ ⟨byteLength before, byteLength before + c.utf8Size⟩

/-- A report about a span in the source covers a piece of it. -/
theorem reportSpan?_of_locates {s : Span} (hne : w.source ≠ []) (h : w.Locates s)
    (hs : isBoundary w.text s.start = true) (he : isBoundary w.text s.stop = true) :
    ∃ before piece after, w.source = before ++ piece ++ after ∧ piece ≠ [] ∧
      w.reportSpan? s = some ⟨byteLength before, byteLength before + byteLength piece⟩ ∧
      w.Covers s ⟨byteLength before, byteLength before + byteLength piece⟩ := by
  rcases Nat.lt_or_eq_of_le h.ordered with hlt | heq
  · obtain ⟨before, piece, after, hcs, hpiece, rfl⟩ :=
      piece_of_window hlt h.starts h.stops hs he
    refine ⟨before, piece, after, hcs, hpiece, ?_, .span hcs hpiece⟩
    rw [reportSpan?_of_lt hlt, toSource?_piece hcs hpiece]
  · obtain ⟨before, c, after, hcs, hreport, hnext⟩ :=
      reportSpan?_place hne (Nat.le_of_eq heq.symm) hs h.starts (heq ▸ h.stops)
    have hc : byteLength [c] = c.utf8Size := by simp
    refine ⟨before, [c], after, by simpa using hcs, List.cons_ne_nil c [], by rwa [hc], ?_⟩
    have hlo := h.starts
    obtain ⟨start, stop⟩ := s
    simp only at heq hnext hlo
    subst heq
    rw [hc]
    exact .place hcs (by omega)

/-- Where a report covers something, it is about a span in the source. -/
theorem locates_of_reportSpan? {s t : Span} (h : w.reportSpan? s = some t)
    (hle : s.start ≤ s.stop) (hs : isBoundary w.text s.start = true) : w.Locates s := by
  rcases Nat.lt_or_eq_of_le hle with hlt | heq
  · rw [reportSpan?_of_lt hlt] at h
    obtain ⟨_, hlo, hhi, _⟩ := toSource?_eq_some_iff.mp h
    exact ⟨hle, hlo, hhi⟩
  · by_cases hout : s.start < wrapperOffset ∨ wrapperOffset + byteLength w.source < s.start
    · rw [reportSpan?_outside (Nat.le_of_eq heq.symm) hs hout] at h
      cases h
    · exact ⟨hle, by omega, by omega⟩

end HoverTips.Wrapped
