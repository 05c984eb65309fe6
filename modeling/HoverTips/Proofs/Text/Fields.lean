import HoverTips.Text.Case
import HoverTips.Proofs.Text.Runs

/-! # Words without white space

A text without white space is its own only field, and lower case brings no white
space in. No word character is white space. What an ending is dropped from stays as
it is exactly when it does not end that way. -/

namespace HoverTips.Text

/-! ## Fields -/

theorem takeWhile_of_all {p : Char → Bool} {cs : List Char} (h : ∀ c ∈ cs, p c = true) :
    cs.takeWhile p = cs :=
  (eq_takeWhile_iff.mpr ⟨[], by simp, h, by simp⟩).symm

/-- Behind a front run that takes the whole text there are no runs. -/
theorem splitRuns_snd_of_all {p : Char → Bool} {cs : List Char} (h : ∀ c ∈ cs, p c = true)
    (offset : Nat) : (splitRuns p offset cs).2 = [] := by
  induction cs generalizing offset with
  | nil => rfl
  | cons c cs ih =>
    rw [List.forall_mem_cons] at h
    simp [splitRuns, h.1, ih h.2]

theorem fields_of_noSpace {cs : List Char} (h : ∀ c ∈ cs, isSpace c = false) :
    fields cs = if cs = [] then [] else [cs] := by
  have hall : ∀ c ∈ cs, (!isSpace c) = true := fun c hc => by simp [h c hc]
  simp only [fields, runs, runsAt, splitRuns_fst, splitRuns_snd_of_all hall,
    takeWhile_of_all hall]
  cases cs <;> simp

theorem noSpace_of_mem_fields {cs word : List Char} (h : word ∈ fields cs) :
    ∀ c ∈ word, isSpace c = false := by
  intro c hc
  simpa using (of_mem_runs h).2 c hc

/-! ## Word characters -/

/-- Tables whose ranges lie apart have no code point in common. -/
theorem inRanges_eq_false {a b : List (Nat × Nat)}
    (hapart : (a.all fun r => b.all fun s => r.2 < s.1 || s.2 < r.1) = true) {n : Nat}
    (h : Unicode.inRanges a n = true) : Unicode.inRanges b n = false := by
  simp only [Unicode.inRanges, List.any_eq_true, List.any_eq_false, Bool.and_eq_true,
    decide_eq_true_eq] at h ⊢
  simp only [List.all_eq_true, Bool.or_eq_true, decide_eq_true_eq] at hapart
  obtain ⟨r, hr, hlo, hhi⟩ := h
  intro s hs hn
  have := hapart r hr s hs
  omega

theorem isWord_of_isSpace {c : Char} (h : isSpace c = true) : isWord c = false := by
  by_cases hascii : c.toNat < 0x80
  · have hall : ∀ n : Fin 0x80, isSpace (Char.ofNat n) = true → isWord (Char.ofNat n) = false := by
      decide
    have hc := hall ⟨c.toNat, hascii⟩
    rw [Char.ofNat_toNat] at hc
    exact hc h
  · rw [isSpace, if_neg hascii] at h
    simp only [isWord, if_neg hascii, Bool.or_eq_false_iff]
    refine ⟨⟨⟨⟨?_, ?_⟩, ?_⟩, ?_⟩, ?_⟩
    all_goals exact inRanges_eq_false (by decide +kernel) h

/-! ## Lower case -/

theorem toNat_toLower (c : Char) :
    c.toLower.toNat = if 65 ≤ c.toNat ∧ c.toNat ≤ 90 then c.toNat + 32 else c.toNat := by
  unfold Char.toLower
  split
  · rename_i h
    obtain ⟨hlo, hhi⟩ := h
    rw [ge_iff_le, UInt32.le_iff_toNat_le] at hlo
    rw [UInt32.le_iff_toNat_le] at hhi
    have hlo : 65 ≤ c.toNat := hlo
    have hhi : c.toNat ≤ 90 := hhi
    rw [if_pos ⟨hlo, hhi⟩]
    show (c.val + ('a'.val - 'A'.val)).toNat = c.toNat + 32
    rw [UInt32.toNat_add]
    show (c.toNat + 32) % 2 ^ 32 = c.toNat + 32
    omega
  · rename_i h
    rw [if_neg]
    intro hcap
    exact h ⟨UInt32.le_iff_toNat_le.mpr hcap.1, UInt32.le_iff_toNat_le.mpr hcap.2⟩

theorem toLower_toLower (c : Char) : c.toLower.toLower = c.toLower := by
  apply Char.toNat_inj.mp
  by_cases hcap : 65 ≤ c.toNat ∧ c.toNat ≤ 90
  · have hn : c.toLower.toNat = c.toNat + 32 := by rw [toNat_toLower, if_pos hcap]
    rw [toNat_toLower, if_neg (by omega)]
  · have hn : c.toLower.toNat = c.toNat := by rw [toNat_toLower, if_neg hcap]
    rw [toNat_toLower, hn, if_neg hcap]

theorem isSpace_toLower {c : Char} (h : isSpace c = false) : isSpace c.toLower = false := by
  by_cases hcap : 65 ≤ c.toNat ∧ c.toNat ≤ 90
  · have hn : c.toLower.toNat = c.toNat + 32 := by rw [toNat_toLower, if_pos hcap]
    have hne : c.toLower ≠ ' ' := by
      intro he
      rw [he] at hn
      have : (' ' : Char).toNat = 32 := rfl
      omega
    have hascii : c.toLower.toNat < 0x80 := by omega
    simp only [isSpace, if_pos hascii, Bool.or_eq_false_iff, beq_eq_false_iff_ne]
    refine ⟨hne, ?_⟩
    simp only [Bool.and_eq_false_iff, decide_eq_false_iff_not]
    omega
  · have hc : c.toLower = c := by
      apply Char.toNat_inj.mp
      rw [toNat_toLower, if_neg hcap]
    rwa [hc]

/-! ## Endings -/

theorem toList_dropEnding_sublist (ending s : String) :
    (dropEnding ending s).toList.Sublist s.toList := by
  unfold dropEnding
  split
  · simpa using List.take_sublist _ _
  · exact List.Sublist.refl _

theorem dropEnding_eq_self_iff {ending s : String} (hne : ending.toList ≠ []) :
    dropEnding ending s = s ↔ ¬ ending.toList <:+ s.toList := by
  unfold dropEnding
  have hpos := List.length_pos_iff.mpr hne
  split
  · rename_i h
    have hsuffix := List.isSuffixOf_iff_suffix.mp h
    have hlen := hsuffix.length_le
    refine ⟨fun he => ?_, fun hnot => absurd hsuffix hnot⟩
    have hsame := congrArg (fun t : String => t.toList.length) he
    simp only [String.toList_ofList, List.length_take] at hsame
    omega
  · rename_i h
    refine ⟨fun _ hsuffix => h (List.isSuffixOf_iff_suffix.mpr hsuffix), fun _ => rfl⟩

end HoverTips.Text
