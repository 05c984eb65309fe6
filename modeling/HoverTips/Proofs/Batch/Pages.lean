import HoverTips.Batch.Runner
import HoverTips.Proofs.Tooltip.Ids

/-! # The pages of a runner

Counting and printing leave the ids of pages alone. A call on a file changes the
ids of that file's page, and of no other. -/

namespace HoverTips

/-- What is found in a block. -/
def Context.analysis (ctx : Context) (b : Markdown.CodeBlock) : Analysis :=
  analyzeBlock ctx.trees ctx.registry b.source b.language

namespace Runner

/-! ## Counting -/

theorem count_pages (f : Metrics → Metrics) (r : Runner) : (r.count f).pages = r.pages := by
  unfold count
  split <;> rfl

theorem foldl_pages {α : Type} {f : Runner → α → Runner} (hf : ∀ r a, (f r a).pages = r.pages)
    (xs : List α) (r : Runner) : (xs.foldl f r).pages = r.pages := by
  induction xs generalizing r with
  | nil => rfl
  | cons x xs ih => rw [List.foldl_cons, ih, hf]

theorem enter_pages (now : Instant) (file : String) (r : Runner) :
    (r.enter now file).pages = r.pages := count_pages _ r

theorem countWarnings_pages (block : String) (warnings : List String) (r : Runner) :
    (r.countWarnings block warnings).pages = r.pages :=
  foldl_pages (fun r _ => count_pages _ r) warnings r

theorem tally_pages (now : Instant) (a : Assembled) (r : Runner) :
    (r.tally now a).pages = r.pages := by
  have hcounted : (a.records.foldl (fun r x => r.count (·.record x))
      (a.rejected.foldl (fun r x => r.count (·.recordError x.term x.refusal.message)) r)).pages =
        r.pages := by
    rw [foldl_pages fun r _ => count_pages _ r, foldl_pages fun r _ => count_pages _ r]
  unfold tally
  dsimp only
  split <;> exact hcounted

/-! ## Calls -/

theorem pageOf_congr {r s : Runner} (h : r.pages = s.pages) (file : String) :
    r.pageOf file = s.pageOf file := by
  rw [pageOf, pageOf, h]

theorem pageOf_new (progress : Progress) (logsDir file : String) :
    (new progress logsDir).pageOf file = .empty file := by
  simp [pageOf, new]

theorem settle_pages (now : Instant) (file : String)
    (outcome : Except DuplicateId Assembled × PageIds) (r : Runner) :
    (r.settle now file outcome).2.pages = r.pages.insert file outcome.2 := by
  unfold settle
  split
  · rfl
  · exact tally_pages _ _ _

/-- A call that adds tooltips leaves other pages as they are. -/
theorem pageOf_settle (now : Instant) (file : String)
    (outcome : Except DuplicateId Assembled × PageIds) (r : Runner) :
    (r.settle now file outcome).2.pageOf file = outcome.2 ∧
      ∀ other, other ≠ file → (r.settle now file outcome).2.pageOf other = r.pageOf other := by
  constructor
  · simp [pageOf, settle_pages]
  · intro other hne
    have hne' : ¬file = other := fun h => hne h.symm
    simp [pageOf, settle_pages, Std.TreeMap.getElem?_insert, hne']

theorem settle_ok (now : Instant) (file : String) {outcome : Except DuplicateId Assembled × PageIds}
    {a : Assembled} (h : outcome.1 = .ok a) (r : Runner) :
    (r.settle now file outcome).1 = .ok a.records := by
  rw [settle, h]

/-- What a call on a file comes to when it goes well: a value, new ids on the
file's page, and no change on other pages. -/
structure Fine {α : Type} (file : String) (r : Runner) (new : String → Prop)
    (out : Except DuplicateId α × Runner) : Prop where
  ok : ∃ a, out.1 = .ok a
  ids : ∀ id ∈ (out.2.pageOf file).ids, id ∈ (r.pageOf file).ids ∨ new id
  others : ∀ other, other ≠ file → out.2.pageOf other = r.pageOf other

theorem settle_fine (now : Instant) {file : String} {r : Runner} {new : String → Prop}
    {outcome : Except DuplicateId Assembled × PageIds} {a : Assembled} {after : PageIds}
    (h : outcome = (.ok a, after)) (hids : ∀ id ∈ after.ids, id ∈ (r.pageOf file).ids ∨ new id) :
    Fine file r new (r.settle now file outcome) := by
  subst h
  obtain ⟨hsame, hothers⟩ := pageOf_settle now file (.ok a, after) r
  exact ⟨⟨a.records, settle_ok now file rfl r⟩, by rwa [hsame], hothers⟩

section Fine

variable {α β : Type} {file : String} {r s : Runner} {new : String → Prop}
  {out : Except DuplicateId α × Runner}

theorem Fine.map (h : Fine file r new out) (f : α → β) :
    Fine file r new (out.1.map f, out.2) where
  ok := by
    obtain ⟨a, ha⟩ := h.ok
    exact ⟨f a, by rw [ha]; rfl⟩
  ids := h.ids
  others := h.others

theorem Fine.congr (h : Fine file r new out) (hs : r.pages = s.pages) : Fine file s new out where
  ok := h.ok
  ids := by
    rw [← pageOf_congr hs]
    exact h.ids
  others := fun other hne => by
    rw [← pageOf_congr hs]
    exact h.others other hne

end Fine

/-- The tooltips of the prose are always made, and have the ids of triggers. -/
theorem processProse_fine (ctx : Context) (clock : Readings) (file prose : String) (r : Runner) :
    Fine file r (fun id => idLetter id = some 'g') (r.processProse ctx clock file prose) := by
  obtain ⟨a, after, h, hids⟩ := ((r.enter clock.entered file).pageOf file).acceptTriggers_spec
    (ctx.triggers.occurring prose)
  exact Fine.congr (settle_fine clock.counted h fun id hid =>
    (hids id hid).imp_right fun ⟨t, _, he⟩ => he ▸ t.idLetter_id) (enter_pages clock.entered file r)

/-- The tooltips of a block are made if their ids are new and different. -/
theorem recordBlock_fine (clock : Readings) {file : String} {block : Markdown.CodeBlock}
    {a : Analysis} {r : Runner} (hnodup : (blockIds block.id a).Nodup)
    (hnew : ∀ id ∈ blockIds block.id a, id ∉ (r.pageOf file).ids) :
    Fine file r (fun id => id ∈ blockIds block.id a ∨ idLetter id = some 'p')
      (r.recordBlock clock file block a) := by
  have hpages : ((r.enter clock.entered file).countWarnings block.id a.warnings).pages = r.pages :=
    (countWarnings_pages _ _ _).trans (enter_pages _ _ r)
  rw [← pageOf_congr hpages] at hnew
  obtain ⟨out, after, h, hids⟩ := PageIds.assembleBlock_spec block.language hnodup hnew
  have hfine := settle_fine clock.counted h fun id hid => (hids id hid).imp_right
    (Or.imp_right fun ⟨tag, he⟩ => (he ▸ idLetter_noteId tag : idLetter id = some 'p'))
  exact (hfine.map _).congr hpages

end Runner

end HoverTips
