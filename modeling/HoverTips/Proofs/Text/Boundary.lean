import HoverTips.Span

/-! # Boundaries of characters

A cut between two offsets of a text is described by what stands before and
behind it. A text splits at an offset in one way, so the description is exact:
a cut exists between any two boundaries (`cut_of_boundaries`), and what it
holds is determined by them (`cut_eq_ok_iff`). -/

namespace HoverTips.Text

theorem byteLength_eq_zero_iff {cs : List Char} : byteLength cs = 0 ↔ cs = [] := by
  cases cs with
  | nil => simp
  | cons c cs =>
    have := c.utf8Size_pos
    simp only [byteLength_cons, reduceCtorEq, iff_false]
    omega

theorem byteLength_pos_iff {cs : List Char} : 0 < byteLength cs ↔ cs ≠ [] := by
  rw [Nat.pos_iff_ne_zero, ne_eq, byteLength_eq_zero_iff]

/-- Of two ways to split a text, the one with more bytes in front passes the
other's split point. -/
theorem split_of_le {a b c d : List Char} (h : a ++ b = c ++ d)
    (hle : byteLength a ≤ byteLength c) : ∃ m, c = a ++ m ∧ b = m ++ d := by
  rcases List.append_eq_append_iff.mp h with ⟨m, hc, hb⟩ | ⟨m, ha, hd⟩
  · exact ⟨m, hc, hb⟩
  · have hm : m = [] := by
      rw [ha, byteLength_append] at hle
      exact byteLength_eq_zero_iff.mp (by omega)
    subst hm
    exact ⟨[], by simpa using ha.symm, by simpa using hd.symm⟩

theorem dropBytes?_eq_some_iff {n : Nat} {cs after : List Char} :
    dropBytes? n cs = some after ↔ ∃ before, cs = before ++ after ∧ byteLength before = n := by
  constructor
  · intro h
    fun_induction dropBytes? n cs with
    | case1 cs => cases h; exact ⟨[], rfl, rfl⟩
    | case2 => cases h
    | case3 n c cs hc ih =>
      obtain ⟨before, rfl, hb⟩ := ih h
      exact ⟨c :: before, rfl, by rw [byteLength_cons]; omega⟩
    | case4 => cases h
  · rintro ⟨before, rfl, rfl⟩
    exact dropBytes?_append before after

theorem takeBytes?_eq_some_iff {n : Nat} {cs before : List Char} :
    takeBytes? n cs = some before ↔ ∃ after, cs = before ++ after ∧ byteLength before = n := by
  constructor
  · intro h
    fun_induction takeBytes? n cs generalizing before with
    | case1 cs => cases h; exact ⟨cs, rfl, rfl⟩
    | case2 => cases h
    | case3 n c cs hc ih =>
      obtain ⟨front, hf, rfl⟩ := Option.map_eq_some_iff.mp h
      obtain ⟨after, rfl, hb⟩ := ih hf
      exact ⟨after, rfl, by rw [byteLength_cons]; omega⟩
    | case4 => cases h
  · rintro ⟨after, rfl, rfl⟩
    exact takeBytes?_append before after

theorem isBoundary_iff {cs : List Char} {n : Nat} :
    isBoundary cs n = true ↔ ∃ before after, cs = before ++ after ∧ byteLength before = n := by
  rw [isBoundary, Option.isSome_iff_exists]
  constructor
  · rintro ⟨after, h⟩
    obtain ⟨before, hcs, hb⟩ := dropBytes?_eq_some_iff.mp h
    exact ⟨before, after, hcs, hb⟩
  · rintro ⟨before, after, hcs, hb⟩
    exact ⟨after, dropBytes?_eq_some_iff.mpr ⟨before, hcs, hb⟩⟩

theorem isBoundary_append (a b : List Char) : isBoundary (a ++ b) (byteLength a) = true :=
  isBoundary_iff.mpr ⟨a, b, rfl, rfl⟩

theorem isBoundary_max {cs : List Char} {m n : Nat} (hm : isBoundary cs m = true)
    (hn : isBoundary cs n = true) : isBoundary cs (max m n) = true := by
  rcases Nat.le_total m n with h | h
  · rwa [Nat.max_eq_right h]
  · rwa [Nat.max_eq_left h]

theorem isBoundary_min {cs : List Char} {m n : Nat} (hm : isBoundary cs m = true)
    (hn : isBoundary cs n = true) : isBoundary cs (min m n) = true := by
  rcases Nat.le_total m n with h | h
  · rwa [Nat.min_eq_left h]
  · rwa [Nat.min_eq_right h]

/-- A nonempty cut is a text with something before it and something behind. -/
theorem cut_eq_ok_iff {cs piece : List Char} {start stop : Nat} (h : start < stop) :
    cut cs start stop = .ok piece ↔
      ∃ before after, cs = before ++ piece ++ after ∧ byteLength before = start ∧
        start + byteLength piece = stop := by
  constructor
  · intro hcut
    unfold cut at hcut
    split at hcut
    · cases hcut
    · rw [if_neg (Nat.ne_of_lt h)] at hcut
      split at hcut
      · cases hcut
      · rename_i rest hdrop
        obtain ⟨before, rfl, hb⟩ := dropBytes?_eq_some_iff.mp hdrop
        split at hcut
        · cases hcut
        · rename_i front htake
          cases hcut
          obtain ⟨after, rfl, hp⟩ := takeBytes?_eq_some_iff.mp htake
          exact ⟨before, after, by simp, hb, by omega⟩
  · rintro ⟨before, after, rfl, rfl, rfl⟩
    exact cut_append before piece after

/-- Between two boundaries there is text, and three parts make up the whole. -/
theorem split_of_boundaries {cs : List Char} {start stop : Nat} (hle : start ≤ stop)
    (hs : isBoundary cs start = true) (he : isBoundary cs stop = true) :
    ∃ before piece after, cs = before ++ piece ++ after ∧ byteLength before = start ∧
      start + byteLength piece = stop := by
  obtain ⟨before, rest, rfl, rfl⟩ := isBoundary_iff.mp hs
  obtain ⟨front, after, hcs, rfl⟩ := isBoundary_iff.mp he
  obtain ⟨piece, rfl, rfl⟩ := split_of_le hcs hle
  exact ⟨before, piece, after, by simp, rfl, by simp⟩

theorem cut_of_boundaries {cs : List Char} {start stop : Nat} (hle : start ≤ stop)
    (hs : isBoundary cs start = true) (he : isBoundary cs stop = true) :
    ∃ piece, cut cs start stop = .ok piece := by
  obtain ⟨before, piece, after, rfl, rfl, rfl⟩ := split_of_boundaries hle hs he
  exact ⟨piece, cut_append before piece after⟩

end HoverTips.Text

namespace HoverTips.Span

/-- What a span selects is a nonempty piece that starts and ends where the span
does. -/
theorem select?_eq_some_iff {cs piece : List Char} {s : Span} :
    s.select? cs = some piece ↔
      piece ≠ [] ∧ ∃ before after, cs = before ++ piece ++ after ∧
        s = ⟨Text.byteLength before, Text.byteLength before + Text.byteLength piece⟩ := by
  unfold select?
  split
  · rename_i hlt
    have hcut : (Text.cut cs s.start s.stop).toOption = some piece ↔
        Text.cut cs s.start s.stop = .ok piece := by
      cases Text.cut cs s.start s.stop <;> simp [Except.toOption]
    rw [hcut, Text.cut_eq_ok_iff hlt]
    constructor
    · rintro ⟨before, after, hcs, hb, he⟩
      refine ⟨Text.byteLength_pos_iff.mp (by omega), before, after, hcs, ?_⟩
      rw [hb, he]
    · rintro ⟨_, before, after, hcs, hs⟩
      rw [hs]
      exact ⟨before, after, hcs, rfl, rfl⟩
  · rename_i hge
    constructor
    · intro h
      cases h
    · rintro ⟨hne, before, after, _, hs⟩
      have := Text.byteLength_pos_iff.mpr hne
      rw [hs] at hge
      exact absurd (by simp only; omega) hge

theorem meet?_eq_some_iff {a b s : Span} :
    a.meet? b = some s ↔
      max a.start b.start < min a.stop b.stop ∧ s = ⟨max a.start b.start, min a.stop b.stop⟩ := by
  unfold meet?
  rw [Option.ite_none_right_eq_some, Option.some.injEq]
  exact and_congr_right fun _ => eq_comm

end HoverTips.Span
