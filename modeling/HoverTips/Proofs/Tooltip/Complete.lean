import HoverTips.Tooltip.Page

/-! # Complete tooltips

Every tooltip that a page accepts was requested and passed the checks on the way:
its id is not blank, and it has triggers, none of them empty. So the term that it
is counted under is its first trigger. -/

namespace HoverTips

/-- A tooltip has what the checks of a request ask for. -/
structure TooltipRecord.Complete (x : TooltipRecord) : Prop where
  id : Text.isBlank x.id.toList = false
  trigger : x.trigger ≠ []
  words : ∀ word ∈ x.trigger, word ≠ ""

theorem TooltipRecord.Complete.head?_trigger {x : TooltipRecord} (h : x.Complete) :
    x.trigger.head? = some x.term := by
  cases ht : x.trigger with
  | nil => exact absurd ht h.trigger
  | cons word words => simp [term, ht]

theorem TooltipRequest.record_complete {q : TooltipRequest} {x : TooltipRecord}
    (h : q.record = .ok x) : x.Complete := by
  unfold record at h
  split at h
  · cases h
  · rename_i id hid
    have hblank := (Option.filter_eq_some_iff.mp hid).2
    split at h
    · cases h
    · cases h
    · rename_i trigger _ _
      split at h
      · cases h
      · rename_i hfull
        cases h
        simp only [Bool.not_eq_true, Bool.or_eq_false_iff] at hfull
        refine ⟨by simpa using hblank, by simpa using hfull.1, ?_⟩
        intro word hword he
        have hnone := List.any_eq_false.mp hfull.2 word hword
        exact hnone (by simp [he])

/-- The drafts of a page go through the checks of a request. -/
def Draft.Checked (d : Draft) : Prop := ∃ q : TooltipRequest, d.record = q.record

theorem Draft.checked (term : String) (q : TooltipRequest) : (Draft.mk term q.record).Checked :=
  ⟨q, rfl⟩

theorem blockDrafts_checked (block : String) (a : Analysis) :
    ∀ d ∈ blockDrafts block a, d.Checked := by
  intro d hd
  rcases List.mem_append.mp hd with hd | hd
  · obtain ⟨t, _, ht⟩ := List.mem_filterMap.mp hd
    obtain ⟨info, _, rfl⟩ := Option.map_eq_some_iff.mp ht
    exact Draft.checked _ _
  · obtain ⟨e, _, rfl⟩ := List.mem_map.mp hd
    exact Draft.checked _ _

namespace PageIds

/-- All tooltips of an addition are complete. -/
def AllComplete (out : Except DuplicateId Assembled) : Prop :=
  ∀ a, out = .ok a → ∀ x ∈ a.records, x.Complete

theorem AllComplete.map {out : Except DuplicateId Assembled} {f : Assembled → Assembled}
    (h : AllComplete out)
    (hf : ∀ a, (∀ x ∈ a.records, x.Complete) → ∀ x ∈ (f a).records, x.Complete) :
    AllComplete (out.map f) := by
  intro b hb
  cases out with
  | error e => cases hb
  | ok a =>
    cases hb
    exact hf a (h a rfl)

theorem AllComplete.behind {out : Except DuplicateId Assembled} {first : Assembled}
    (h : AllComplete out) (hfirst : ∀ x ∈ first.records, x.Complete) :
    AllComplete
      (out.map fun a => ⟨first.records ++ a.records, first.rejected ++ a.rejected⟩) := by
  refine h.map fun a ha x hx => ?_
  exact (List.mem_append.mp hx).elim (hfirst x) (ha x)

theorem accept_complete {ds : List Draft} (hds : ∀ d ∈ ds, d.Checked) (p : PageIds) :
    AllComplete (p.accept ds).1 := by
  induction ds generalizing p with
  | nil =>
    intro a ha
    cases ha
    simp
  | cons d ds ih =>
    rw [List.forall_mem_cons] at hds
    obtain ⟨⟨q, hq⟩, hds⟩ := hds
    rw [accept]
    split
    · exact (ih hds p).map fun a ha => ha
    · rename_i x hx
      split
      · intro a ha
        cases ha
      · refine (ih hds _).map fun a ha => ?_
        exact List.forall_mem_cons.mpr ⟨TooltipRequest.record_complete (hq ▸ hx), ha⟩

theorem acceptThen_complete {ds : List Draft} {more : PageIds → List Draft}
    (hds : ∀ d ∈ ds, d.Checked) (hmore : ∀ q, ∀ d ∈ more q, d.Checked) (p : PageIds) :
    AllComplete (p.acceptThen ds more).1 := by
  have hfirst := accept_complete hds p
  unfold acceptThen
  split
  · intro a ha
    cases ha
  · rename_i first after h
    rw [h] at hfirst
    exact (accept_complete (hmore after) after).behind (hfirst first rfl)

theorem assembleBlock_complete (block info : String) (a : Analysis) (p : PageIds) :
    AllComplete (p.assembleBlock block info a).1 := by
  refine acceptThen_complete (blockDrafts_checked block a) (fun q d hd => ?_) p
  split at hd
  · cases hd
  · obtain rfl := List.mem_singleton.mp hd
    exact Draft.checked _ _

theorem acceptTriggers_complete (ts : List GlobalTrigger) (p : PageIds) :
    AllComplete (p.acceptTriggers ts).1 := by
  induction ts generalizing p with
  | nil =>
    intro a ha
    cases ha
    simp
  | cons t ts ih =>
    have hchecked : ∀ d ∈ [(⟨t.phrase, t.request.record⟩ : Draft)], d.Checked := by
      intro d hd
      obtain rfl := List.mem_singleton.mp hd
      exact Draft.checked _ _
    have hfirst := accept_complete hchecked p
    rw [acceptTriggers]
    split
    · exact ih p
    · split
      · intro a ha
        cases ha
      · rename_i first after h
        rw [h] at hfirst
        exact (ih after).behind (hfirst first rfl)

end PageIds

end HoverTips
