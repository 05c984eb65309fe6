import HoverTips.Proofs.Token.Placement

/-! # Merging in reading order

Tokens in reading order are determined by what they have over each span, in
order (`eq_of_ordered`). Sorting changes nothing over any span, and over a span
the merge has the tokens of one side alone. So whatever is to be said about a
merge can be said span by span. -/

namespace HoverTips

theorem Span.precedes_refl (a : Span) : a.precedes a = true := by
  simp [Span.precedes]

theorem Span.precedes_antisymm {a b : Span} (hab : a.precedes b = true)
    (hba : b.precedes a = true) : a = b := by
  rw [precedes_iff] at hab hba
  cases a
  cases b
  simp only [Span.mk.injEq]
  simp only at hab hba
  omega

/-- The tokens over a span, in order. -/
def tokensOver (s : Span) (tokens : List Token) : List Token := tokens.filter (·.span == s)

section tokensOver

variable {s : Span} {ts us : List Token} {t : Token}

@[simp] theorem mem_tokensOver : t ∈ tokensOver s ts ↔ t ∈ ts ∧ t.span = s := by
  simp [tokensOver]

@[simp] theorem tokensOver_append : tokensOver s (ts ++ us) = tokensOver s ts ++ tokensOver s us :=
  List.filter_append ..

theorem tokensOver_cons : tokensOver t.span (t :: ts) = t :: tokensOver t.span ts := by
  simp [tokensOver]

theorem tokensOver_cons_of_ne (h : t.span ≠ s) : tokensOver s (t :: ts) = tokensOver s ts := by
  simp [tokensOver, h]

/-- Where spans differ, the order that tokens come in does not show over any of
them. -/
theorem tokensOver_of_perm (hnodup : (ts.map Token.span).Nodup) (h : us.Perm ts) :
    tokensOver s us = tokensOver s ts := by
  have hperm : (tokensOver s us).Perm (tokensOver s ts) := h.filter _
  have hone : ((tokensOver s ts).map Token.span).Nodup :=
    hnodup.sublist (List.filter_sublist.map _)
  cases hts : tokensOver s ts with
  | nil => rwa [hts, List.perm_nil] at hperm
  | cons t rest =>
    cases rest with
    | nil => rwa [hts, List.perm_singleton] at hperm
    | cons u rest =>
      have ht : t ∈ tokensOver s ts := by simp [hts]
      have hu : u ∈ tokensOver s ts := by simp [hts]
      simp [hts, (mem_tokensOver.mp ht).2, (mem_tokensOver.mp hu).2] at hone

/-- Sorting is stable. -/
theorem tokensOver_sortTokens : tokensOver s (sortTokens ts) = tokensOver s ts := by
  have halike : (tokensOver s ts).Pairwise fun a b => a.span.precedes b.span = true := by
    refine List.pairwise_of_forall_mem_list fun a ha b hb => ?_
    rw [(mem_tokensOver.mp ha).2, (mem_tokensOver.mp hb).2]
    exact Span.precedes_refl s
  have hsorted : (tokensOver s ts).Sublist (sortTokens ts) :=
    sublist_sortTokens halike List.filter_sublist
  have hsub : (tokensOver s ts).Sublist (tokensOver s (sortTokens ts)) := by
    have hfilter := hsorted.filter (·.span == s)
    simpa only [tokensOver, List.filter_filter, Bool.and_self] using hfilter
  exact (hsub.eq_of_length ((sortTokens_perm ts).filter _).length_eq.symm).symm

/-- Tokens in reading order are the same when they are the same over each span. -/
theorem eq_of_ordered (hts : ts.Pairwise fun a b => a.span.precedes b.span = true)
    (hus : us.Pairwise fun a b => a.span.precedes b.span = true)
    (h : ∀ s, tokensOver s ts = tokensOver s us) : ts = us := by
  have hmem : ∀ t, t ∈ ts ↔ t ∈ us := by
    intro t
    have hover := congrArg (t ∈ ·) (h t.span)
    simpa using hover
  induction ts generalizing us with
  | nil =>
    cases us with
    | nil => rfl
    | cons u us => simpa using hmem u
  | cons t ts ih =>
    cases us with
    | nil => simpa using hmem t
    | cons u us =>
      rw [List.pairwise_cons] at hts hus
      -- each of the two first tokens stands on the other side too, so neither comes later
      have htu : t.span.precedes u.span = true := by
        rcases List.mem_cons.mp ((hmem u).mpr (by simp)) with rfl | hu
        · exact Span.precedes_refl _
        · exact hts.1 u hu
      have hut : u.span.precedes t.span = true := by
        rcases List.mem_cons.mp ((hmem t).mp (by simp)) with rfl | ht
        · exact Span.precedes_refl _
        · exact hus.1 t ht
      have hspan : u.span = t.span := Span.precedes_antisymm hut htu
      have hfirst := h t.span
      rw [tokensOver_cons, ← hspan, tokensOver_cons, List.cons.injEq] at hfirst
      obtain ⟨rfl, hfirst⟩ := hfirst
      congr 1
      have hrest : ∀ s, tokensOver s ts = tokensOver s us := by
        intro s
        by_cases hs : t.span = s
        · rwa [← hs]
        · have hall := h s
          rwa [tokensOver_cons_of_ne hs, tokensOver_cons_of_ne hs] at hall
      refine ih hts.2 hus.2 hrest fun t => ?_
      have hover := congrArg (t ∈ ·) (hrest t.span)
      simpa using hover

end tokensOver

/-! ## The merge -/

section mergeTokens

variable {scan walk : List Token}

/-- Over a span the merge has the tokens of the walk, or without any those of the
scan, in their order. -/
theorem tokensOver_mergeTokens (s : Span) :
    tokensOver s (mergeTokens scan walk) =
      if claims walk s then tokensOver s walk else tokensOver s scan := by
  rw [mergeTokens, tokensOver_sortTokens, tokensOver_append]
  split
  · rename_i hclaimed
    have hnone : tokensOver s (scan.filter fun t => !claims walk t.span) = [] := by
      refine List.filter_eq_nil_iff.mpr fun t ht hs => ?_
      rw [beq_iff_eq] at hs
      have hfree := (List.mem_filter.mp ht).2
      simp [hs, hclaimed] at hfree
    rw [hnone, List.append_nil]
  · rename_i hfree
    rw [Bool.not_eq_true] at hfree
    have hnone : tokensOver s walk = [] := by
      refine List.filter_eq_nil_iff.mpr fun t ht hs => ?_
      rw [beq_iff_eq] at hs
      exact claims_eq_false_iff.mp hfree t ht hs
    have hall : tokensOver s (scan.filter fun t => !claims walk t.span) = tokensOver s scan := by
      rw [tokensOver, List.filter_filter]
      refine List.filter_congr fun t _ => ?_
      by_cases hs : t.span = s
      · simp [hs, hfree]
      · simp [hs]
    rw [hnone, hall, List.nil_append]

theorem mergeTokens_ordered :
    (mergeTokens scan walk).Pairwise fun a b => a.span.precedes b.span = true :=
  sortTokens_ordered _

/-- A merge has nothing more to give to the same walk. -/
theorem mergeTokens_again : mergeTokens (mergeTokens scan walk) walk = mergeTokens scan walk := by
  refine eq_of_ordered mergeTokens_ordered mergeTokens_ordered fun s => ?_
  rw [tokensOver_mergeTokens, tokensOver_mergeTokens]
  split <;> rfl

/-- Where spans differ on each side, the order that the tokens come in is not
seen in the merge. -/
theorem mergeTokens_of_perm {scan' walk' : List Token} (hscan : (scan.map Token.span).Nodup)
    (hwalk : (walk.map Token.span).Nodup) (hs : scan'.Perm scan) (hw : walk'.Perm walk) :
    mergeTokens scan' walk' = mergeTokens scan walk := by
  refine eq_of_ordered mergeTokens_ordered mergeTokens_ordered fun s => ?_
  have hclaims : claims walk' s = claims walk s := hw.any_eq
  rw [tokensOver_mergeTokens, tokensOver_mergeTokens, hclaims, tokensOver_of_perm hscan hs,
    tokensOver_of_perm hwalk hw]

/-- The merge has every token of the walk, and of the scan those over spans that
the walk has no token for. It stands in reading order, and over one span it has
the tokens of the side they come from, in their order there. So a second merge
with the same walk changes nothing, and where spans differ on each side the order
of the tokens does not matter. -/
theorem mergeTokens_stable (scan walk : List Token) :
    (mergeTokens scan walk).Perm
        (walk ++ scan.filter fun t => decide (∀ w ∈ walk, w.span ≠ t.span)) ∧
      (mergeTokens scan walk).Pairwise (fun a b => a.span.start < b.span.start ∨
        a.span.start = b.span.start ∧ b.span.stop ≤ a.span.stop) ∧
      (∀ s, tokensOver s (mergeTokens scan walk) =
        if ∃ w ∈ walk, w.span = s then tokensOver s walk else tokensOver s scan) ∧
      mergeTokens (mergeTokens scan walk) walk = mergeTokens scan walk ∧
      ∀ scan' walk', (scan.map Token.span).Nodup → (walk.map Token.span).Nodup →
        scan'.Perm scan → walk'.Perm walk → mergeTokens scan' walk' = mergeTokens scan walk := by
  have hfree : ∀ t : Token, (!claims walk t.span) = decide (∀ w ∈ walk, w.span ≠ t.span) := by
    intro t
    rw [Bool.eq_iff_iff, Bool.not_eq_true', claims_eq_false_iff, decide_eq_true_iff]
  refine ⟨?_, ?_, fun s => ?_, mergeTokens_again, fun _ _ => mergeTokens_of_perm⟩
  · simp only [← hfree]
    exact sortTokens_perm _
  · exact mergeTokens_ordered.imp Span.precedes_iff.mp
  · simp [tokensOver_mergeTokens, claims]

/-- Nested spans, a span that both sides have, and two that overlap. -/
theorem mergeTokens_stable_nested :
    let token (i j : Nat) (info : Option HoverInfo) : Token := ⟨⟨i, j⟩, .identifier, "", info, none⟩
    let scan := [token 5 6 none, token 0 4 none, token 0 2 none]
    let walk := [token 3 5 none, token 0 4 (some (.label "x"))]
    (scan.map Token.span).Nodup ∧ (walk.map Token.span).Nodup ∧
      mergeTokens scan.reverse walk.reverse = mergeTokens scan walk ∧
      mergeTokens scan walk =
        [token 0 4 (some (.label "x")), token 0 2 none, token 3 5 none, token 5 6 none] := by
  intro token scan walk
  have hscan : (scan.map Token.span).Nodup := by decide
  have hwalk : (walk.map Token.span).Nodup := by decide
  obtain ⟨hperm, _, _, _, horder⟩ := mergeTokens_stable scan walk
  refine ⟨hscan, hwalk, horder _ _ hscan hwalk (List.reverse_perm _) (List.reverse_perm _), ?_⟩
  let merged := [token 0 4 (some (.label "x")), token 0 2 none, token 3 5 none, token 5 6 none]
  have hmerged : (mergeTokens scan walk).Perm merged := hperm.trans (by decide)
  have hone : ∀ t ∈ merged, ∀ u ∈ merged, t.span.precedes u.span = true →
      u.span.precedes t.span = true → t = u := by decide
  refine hmerged.eq_of_pairwise (fun t u ht hu => ?_) mergeTokens_ordered (by decide)
  exact hone t (hmerged.mem_iff.mp ht) u hu

end mergeTokens

end HoverTips
