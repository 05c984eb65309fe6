import HoverTips.Proofs.Tree.Faults

/-! # Slices of a block

A walk cuts text out of the wrapped block at offsets that come from the tree, and
computes further offsets from those. Over a tree that lies in its text every cut
lies between characters, and where an offset is taken off another one the other is
the larger one, so that nothing is lost (`safelySliced_of_fits`). -/

namespace HoverTips.Tree

open Text (byteLength isSpace)

variable {w : Wrapped} {src : List Char}

/-! ## Texts in messages -/

theorem utf8Size_of_isQuote {c : Char} (h : isQuote c = true) : c.utf8Size = 1 := by
  simp only [isQuote, Bool.or_eq_true, beq_iff_eq] at h
  obtain (rfl | rfl) | rfl := h <;> decide

/-- The text between two quotes is what lies a byte from either end. -/
theorem cut_quoted {q : Char} (hq : isQuote q = true) (inner : List Char) :
    Text.cut (q :: (inner ++ [q])) 1 (byteLength (q :: (inner ++ [q])) - 1) = .ok inner := by
  have hsize := utf8Size_of_isQuote hq
  have hcut := Text.cut_append [q] inner [q]
  have hstop : byteLength (q :: (inner ++ [q])) - 1 = byteLength [q] + byteLength inner := by
    simp only [Text.byteLength_cons, Text.byteLength_append, Text.byteLength_nil]
    omega
  rw [hstop, ← hsize]
  simpa using hcut

/-- Quotes are taken off in pairs, with a byte each; a text without them stays. -/
theorem unquote_slice (text : String) :
    (unquote text).toList = Text.trim text.toList ∨
      2 ≤ byteLength (Text.trim text.toList) ∧
        Text.cut (Text.trim text.toList) 1 (byteLength (Text.trim text.toList) - 1) =
          .ok (unquote text).toList := by
  unfold unquote
  simp only
  split
  · rename_i first second rest htrim
    split
    · rename_i hquotes
      rw [Bool.and_eq_true, beq_iff_eq] at hquotes
      obtain ⟨inner, hinner⟩ := List.getLast?_eq_some_iff.mp hquotes.2
      rw [htrim, hinner, List.dropLast_concat, String.toList_ofList]
      refine .inr ⟨?_, cut_quoted hquotes.1 inner⟩
      have hsize := utf8Size_of_isQuote hquotes.1
      simp only [Text.byteLength_cons, Text.byteLength_append, Text.byteLength_nil]
      omega
    · exact .inl (by rw [htrim, String.toList_ofList])
  · exact .inl (String.toList_ofList)

/-- The shown part of a long word ends between characters. -/
theorem cut_shown (word : List Char) :
    Text.cut word 0 (byteLength (word.take shownCharacters)) =
      .ok (word.take shownCharacters) := by
  have hcut := Text.cut_append [] (word.take shownCharacters) (word.drop shownCharacters)
  simpa using hcut

/-! ## Text out of place -/

/-- Trimming a span moves its start by the white space in front and keeps text. -/
theorem trimSpan_slice {s : Span} {text : List Char} (h : readSpan src s = .ok text) :
    ∃ kept, readSpan src (trimSpan s text) = .ok kept ∧
      (Text.isBlank text = false → (trimSpan s text).start +
        byteLength (Text.trimStartOf isSpace text) = s.start + byteLength text) := by
  by_cases hblank : Text.isBlank text = true
  · rw [trimSpan, if_pos hblank]
    exact ⟨text, h, fun hfull => absurd (hblank.symm.trans hfull) (by simp)⟩
  · obtain ⟨trail, htrims⟩ := Text.trim_trims text
    have hread : Text.cut src s.start s.stop = .ok text := by
      unfold readSpan at h
      split at h
      · rename_i piece hpiece
        rw [hpiece, Except.ok.inj h]
      · cases h
    have hfull : text ≠ [] := fun he => hblank (by rw [he]; rfl)
    have hlen := Text.byteLength_cut hread
    have hpos := Text.byteLength_pos_iff.mpr hfull
    obtain ⟨before, after, hsrc, hbefore, _⟩ := (Text.cut_eq_ok_iff (by omega)).mp hread
    have hsplit : src =
        (before ++ text.takeWhile isSpace) ++ Text.trim text ++ (trail ++ after) := by
      rw [hsrc]
      conv => lhs; rw [htrims.parts]
      simp
    have hcut := Text.cut_append (before ++ text.takeWhile isSpace) (Text.trim text)
      (trail ++ after)
    rw [← hsplit, Text.byteLength_append, hbefore] at hcut
    refine ⟨Text.trim text, ?_, fun _ => ?_⟩
    · rw [trimSpan, if_neg hblank, readSpan, hcut]
    · rw [trimSpan, if_neg hblank, Text.trimStartOf]
      have hparts := congrArg byteLength (List.takeWhile_append_dropWhile (p := isSpace) (l := text))
      rw [Text.byteLength_append] at hparts
      simp only
      omega

/-! ## Trees -/

/-- Every text that a walk cuts out of a block is there, and every offset that it
computes is what it stands for. -/
structure SafelySliced (w : Wrapped) (root : Node) : Prop where
  /-- Every node has text. -/
  texts : ∀ n ∈ root.nodes, ∃ text, n.text w.text = .ok text
  /-- What a node shares with the source is text, also without the white space at its
  ends, and that white space is counted exactly. -/
  shared : ∀ n ∈ root.nodes, ∀ s, n.span.meet? w.window = some s →
    ∃ text kept, readSpan w.text s = .ok text ∧ readSpan w.text (trimSpan s text) = .ok kept ∧
      (Text.isBlank text = false → (trimSpan s text).start +
        byteLength (Text.trimStartOf isSpace text) = s.start + byteLength text)
  /-- A node in the source is moved by the length of the wrapper, and has its text there. -/
  moved : ∀ n ∈ root.nodes, ∀ s, w.toSource? n.span = some s →
    n.span = ⟨wrapperOffset + s.start, wrapperOffset + s.stop⟩ ∧
      (s.select? w.source).isSome = true
  /-- A report about a place is widened by the character on one of its sides, all of it. -/
  widened : ∀ n ∈ root.nodes, ∀ s,
    w.characterBefore? n.span.start = some s ∨ w.characterAfter? n.span.start = some s →
      ∃ c, readSpan w.text s = .ok [c] ∧ s.start + c.utf8Size = s.stop ∧
        (s.stop = n.span.start ∨ s.start = n.span.start)
  /-- What a report covers is moved by the length of the wrapper. -/
  reported : ∀ s t, w.toSource? s = some t → s = ⟨wrapperOffset + t.start, wrapperOffset + t.stop⟩
  /-- A string is shown without a byte at either end, or as it is. -/
  unquoted : ∀ text, (unquote text).toList = Text.trim text.toList ∨
    2 ≤ byteLength (Text.trim text.toList) ∧
      Text.cut (Text.trim text.toList) 1 (byteLength (Text.trim text.toList) - 1) =
        .ok (unquote text).toList
  /-- A word is shown up to the end of a character. -/
  shortened : ∀ word, Text.cut word 0 (byteLength (word.take shownCharacters)) =
    .ok (word.take shownCharacters)

theorem widened_of_character {n : Nat} {s : Span}
    (h : w.characterBefore? n = some s ∨ w.characterAfter? n = some s) :
    ∃ c, readSpan w.text s = .ok [c] ∧ s.start + c.utf8Size = s.stop ∧
      (s.stop = n ∨ s.start = n) := by
  rcases h with h | h
  · obtain ⟨c, hcut, hstart, hstop⟩ := Wrapped.cut_characterBefore? h
    exact ⟨c, by rw [readSpan, hcut], hstart.trans hstop.symm, .inl hstop⟩
  · obtain ⟨c, hcut, hstart, hstop⟩ := Wrapped.cut_characterAfter? h
    exact ⟨c, by rw [readSpan, hcut], by rw [hstart, hstop], .inr hstart⟩

/-- Over a tree that lies in its text everything is cut between characters. -/
theorem safelySliced_of_fits {root : Node} (h : root.Fits w.text) : SafelySliced w root where
  texts n hn := Node.text_succeeds (h.of_mem_nodes hn)
  shared n hn s hs := by
    have hlabel := (h.of_mem_nodes hn).label
    obtain ⟨hmeets, rfl⟩ := meet?_window_eq_some_iff.mp hs
    have hread : Succeeds (readSpan w.text (n.shared w)) :=
      readSpan_succeeds (Nat.le_of_lt hmeets)
        (Text.isBoundary_max hlabel.starts Wrapped.isBoundary_window_start)
        (Text.isBoundary_min hlabel.stops Wrapped.isBoundary_window_stop)
    obtain ⟨text, htext⟩ := hread
    obtain ⟨kept, hkept, hexact⟩ := trimSpan_slice htext
    exact ⟨text, kept, htext, hkept, hexact⟩
  moved n hn s hs := by
    have hlabel := (h.of_mem_nodes hn).label
    obtain ⟨piece, hpiece⟩ := Wrapped.select?_toSource? hs hlabel.starts hlabel.stops
    exact ⟨Wrapped.toSource?_exact hs, by rw [hpiece]; rfl⟩
  widened _ _ _ hs := widened_of_character hs
  reported _ _ := Wrapped.toSource?_exact
  unquoted := unquote_slice
  shortened := cut_shown

end HoverTips.Tree
