import HoverTips.Proofs.Text.Fields

/-! # Texts on one line

Compacting leaves no white space but single spaces: one stands in the text exactly when
it was written in several pieces (`space_mem_compact_iff`), and no line break is left
(`oneLine_compact`). Texts on one line stay on one line when they are put together. -/

namespace HoverTips.Text

/-- A character of a joined text stands in a part or between two. -/
theorem of_mem_intercalate {c : Char} {sep : String} {parts : List String}
    (h : c ∈ (sep.intercalate parts).toList) :
    c ∈ sep.toList ∨ ∃ part ∈ parts, c ∈ part.toList := by
  induction parts with
  | nil => simp at h
  | cons first rest ih =>
    cases rest with
    | nil => exact .inr ⟨first, by simp, by simpa using h⟩
    | cons second rest =>
      rw [String.intercalate_cons_cons, String.toList_append, String.toList_append,
        List.mem_append, List.mem_append] at h
      obtain (h | h) | h := h
      · exact .inr ⟨first, by simp, h⟩
      · exact .inl h
      · exact (ih h).imp_right fun ⟨part, hpart, hc⟩ => ⟨part, List.mem_cons_of_mem _ hpart, hc⟩

theorem of_mem_compact {s : String} {c : Char} (h : c ∈ (compact s).toList) :
    c = ' ' ∨ isSpace c = false := by
  obtain h | ⟨part, hpart, hc⟩ := of_mem_intercalate h
  · exact .inl (List.mem_singleton.mp h)
  · obtain ⟨word, hword, rfl⟩ := List.mem_map.mp hpart
    exact .inr (noSpace_of_mem_fields hword c (by simpa using hc))

/-- A compacted text has a space when it was written in several pieces. -/
theorem space_mem_compact_iff {s : String} :
    ' ' ∈ (compact s).toList ↔ 2 ≤ (fields s.toList).length := by
  have hwords := fun word (h : word ∈ fields s.toList) => noSpace_of_mem_fields h ' '
  rw [compact]
  match hf : fields s.toList with
  | [] => simp
  | [word] =>
    rw [hf] at hwords
    have hnone : ' ' ∉ word := fun hc => by cases hwords word (by simp) hc
    simpa using hnone
  | first :: second :: rest => simp [String.intercalate_cons_cons]

/-- The characters that end a line. -/
def isLineBreak (c : Char) : Bool :=
  (10 ≤ c.toNat && c.toNat ≤ 13) || c == '\u0085' || c == '\u2028' || c == '\u2029'

theorem isSpace_of_isLineBreak {c : Char} (h : isLineBreak c = true) : isSpace c = true := by
  simp only [isLineBreak, Bool.or_eq_true, Bool.and_eq_true, decide_eq_true_iff, beq_iff_eq] at h
  obtain ((⟨hlo, hhi⟩ | rfl) | rfl) | rfl := h
  · rw [isSpace, if_pos (by omega), Bool.or_eq_true, Bool.and_eq_true, decide_eq_true_iff,
      decide_eq_true_iff]
    exact .inr ⟨by omega, hhi⟩
  all_goals decide

/-- A text without line breaks. -/
def OneLine (s : String) : Prop := ∀ c ∈ s.toList, isLineBreak c = false

instance (s : String) : Decidable (OneLine s) :=
  List.decidableBAll (fun c => isLineBreak c = false) s.toList

@[simp]
theorem oneLine_append_iff {s t : String} : OneLine (s ++ t) ↔ OneLine s ∧ OneLine t := by
  rw [OneLine, String.toList_append, List.forall_mem_append, OneLine, OneLine]

@[simp]
theorem oneLine_ite_iff {c : Prop} [Decidable c] {s t : String} :
    OneLine (if c then s else t) ↔ if c then OneLine s else OneLine t := by
  split <;> rfl

theorem OneLine.append {s t : String} (hs : OneLine s) (ht : OneLine t) : OneLine (s ++ t) :=
  oneLine_append_iff.mpr ⟨hs, ht⟩

theorem oneLine_intercalate {sep : String} {parts : List String} (hsep : OneLine sep)
    (h : ∀ part ∈ parts, OneLine part) : OneLine (sep.intercalate parts) := by
  intro c hc
  obtain hc | ⟨part, hpart, hc⟩ := of_mem_intercalate hc
  · exact hsep c hc
  · exact h part hpart c hc

theorem oneLine_join {parts : List String} (h : ∀ part ∈ parts, OneLine part) :
    OneLine (String.join parts) := by
  intro c hc
  rw [String.toList_join] at hc
  obtain ⟨part, hpart, hc⟩ := List.mem_flatMap.mp hc
  exact h part hpart c hc

theorem oneLine_compact (s : String) : OneLine (compact s) := by
  intro c hc
  refine Bool.eq_false_iff.mpr fun hbreak => ?_
  obtain rfl | hspace := of_mem_compact hc
  · cases hbreak
  · exact absurd (isSpace_of_isLineBreak hbreak) (by simp [hspace])

end HoverTips.Text
