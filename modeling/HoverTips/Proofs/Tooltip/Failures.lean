import HoverTips.Analysis
import HoverTips.Token.Scan
import HoverTips.Proofs.Tooltip.Additions

/-! # What a failure leaves on a page

A page takes the ids of a block one by one, and nothing takes them back. An
addition that comes upon an id twice ends there: the tooltips before it are
thrown away, and their ids stay on the page. From then on the page refuses the
blocks that share one of these ids, also where it would have taken the block
before. -/

namespace HoverTips

namespace PageIds

variable {p q : PageIds} {block info : String} {a : Analysis}

theorem map_eq_error_iff {out : Except DuplicateId Assembled × PageIds}
    {f : Assembled → Assembled} {e : DuplicateId} :
    (out.1.map f, out.2) = (.error e, q) ↔ out = (.error e, q) := by
  obtain ⟨outcome, after⟩ := out
  cases outcome <;> simp [Except.map]

/-- Drafts are accepted exactly when their ids differ and are new to the page. -/
theorem accept_ok_iff {ds : List Draft} :
    (∃ out after, p.accept ds = (.ok out, after)) ↔
      (draftIds ds).Nodup ∧ ∀ id ∈ draftIds ds, id ∉ p.ids := by
  constructor
  · rintro ⟨out, after, h⟩
    obtain ⟨hadded, hrecords⟩ := accept_added h
    rw [draftIds_eq, ← hrecords]
    refine ⟨hadded.nodup, ?_⟩
    intro id hid
    obtain ⟨x, hx, rfl⟩ := List.mem_map.mp hid
    exact hadded.fresh x hx
  · intro ⟨hnodup, hnew⟩
    obtain ⟨out, after, h, _⟩ := accept_of_nodup hnodup hnew
    exact ⟨out, after, h⟩

/-- An addition that fails does so at the first draft with an id that the page has by
then. The page has the ids of the drafts before it. -/
theorem accept_error {ds : List Draft} {e : DuplicateId} (h : p.accept ds = (.error e, q)) :
    ∃ front d back x, ds = front ++ d :: back ∧ d.record = .ok x ∧ e = ⟨p.page, x.id⟩ ∧
      p.Added (draftRecords front) q ∧ x.id ∈ q.ids := by
  induction ds generalizing p with
  | nil => cases h
  | cons d ds ih =>
    rw [accept] at h
    split at h
    · rename_i refusal hd
      obtain ⟨front, d', back, x, rfl, hx, he, hadded, hmem⟩ := ih (map_eq_error_iff.mp h)
      refine ⟨d :: front, d', back, x, rfl, hx, he, ?_, hmem⟩
      simpa [draftRecords, hd, Except.toOption] using hadded
    · rename_i x hd
      split at h
      · rename_i hheld
        cases h
        exact ⟨[], d, ds, x, rfl, hd, rfl, .refl _, contains_iff.mp hheld⟩
      · rename_i hnew
        obtain ⟨front, d', back, y, rfl, hy, he, hadded, hmem⟩ := ih (map_eq_error_iff.mp h)
        refine ⟨d :: front, d', back, y, rfl, hy, he, ?_, hmem⟩
        have hfirst := Added.single fun hx => hnew (contains_iff.mpr hx)
        simpa [draftRecords, hd, Except.toOption] using hfirst.trans hadded

/-- The note about the parsers is never what a block fails at. -/
theorem assembleBlock_eq_error {e : DuplicateId}
    (h : p.assembleBlock block info a = (.error e, q)) :
    p.accept (blockDrafts block a) = (.error e, q) := by
  unfold assembleBlock acceptThen at h
  split at h
  · rename_i e' after hfirst
    rw [hfirst]
    exact h
  · rename_i first after _
    obtain ⟨out, last, hnote, _⟩ := after.accept_note (noteTag info) a
    rw [map_eq_error_iff, hnote] at h
    cases h

/-- A block is taken exactly when the ids of its tokens and errors differ and are new. -/
theorem assembleBlock_ok_iff :
    (∃ out after, p.assembleBlock block info a = (.ok out, after)) ↔
      (blockIds block a).Nodup ∧ ∀ id ∈ blockIds block a, id ∉ p.ids := by
  constructor
  · rintro ⟨out, after, h⟩
    refine accept_ok_iff.mp ?_
    unfold assembleBlock acceptThen at h
    split at h
    · cases h
    · exact ⟨_, _, ‹_›⟩
  · intro ⟨hnodup, hnew⟩
    obtain ⟨out, after, h, _⟩ := assembleBlock_spec info hnodup hnew
    exact ⟨out, after, h⟩

/-- A block fails at the first of its tooltips whose id is on the page by then, and
the error names this id. The page keeps the ids it had and those of the tooltips
that came before, which are new to it and differ from each other; it is unchanged
exactly when there are none. A block that the page would have taken is refused
afterwards exactly when it shares an id with them. -/
theorem assembleBlock_error {e : DuplicateId}
    (h : p.assembleBlock block info a = (.error e, q)) :
    ∃ front d back x, blockDrafts block a = front ++ d :: back ∧ d.record = .ok x ∧
      e = ⟨p.page, x.id⟩ ∧ (x.id ∈ p.ids ∨ x.id ∈ (draftRecords front).map (·.id)) ∧
      q.ids = ((draftRecords front).map (·.id)).reverse ++ p.ids ∧
      (∀ id ∈ (draftRecords front).map (·.id), id ∉ p.ids) ∧
      ((draftRecords front).map (·.id)).Nodup ∧
      (q.ids = p.ids ↔ draftRecords front = []) ∧
      ∀ block' info' a', (∃ out after, p.assembleBlock block' info' a' = (.ok out, after)) →
        ((∃ out after, q.assembleBlock block' info' a' = (.ok out, after)) ↔
          ∀ id ∈ (draftRecords front).map (·.id), id ∉ blockIds block' a') := by
  obtain ⟨front, d, back, x, hdrafts, hx, he, hadded, hmem⟩ :=
    accept_error (assembleBlock_eq_error h)
  refine ⟨front, d, back, x, hdrafts, hx, he, (hadded.mem_iff.mp hmem).symm, hadded.ids, ?_,
    hadded.nodup, ?_, ?_⟩
  · intro id hid
    obtain ⟨y, hy, rfl⟩ := List.mem_map.mp hid
    exact hadded.fresh y hy
  · rw [hadded.ids]
    simp
  · intro block' info' a' htaken
    obtain ⟨hnodup, hnew⟩ := assembleBlock_ok_iff.mp htaken
    rw [assembleBlock_ok_iff]
    constructor
    · intro hafter id hid hblock
      exact hafter.2 id hblock (hadded.mem_iff.mpr (.inl hid))
    · intro hapart
      refine ⟨hnodup, ?_⟩
      intro id hid hheld
      rcases hadded.mem_iff.mp hheld with hthrown | hp
      · exact hapart id hthrown hid
      · exact hnew id hid hp

/-- A registry with two names. -/
def twoNames : Registry :=
  (Glossary.empty.insertAll
    [("Promise", ⟨"class Promise<T>", "", Palette.builtin.color⟩),
      ("fetch", ⟨"fetch(url)", "Starts a request.", Palette.builtin.color⟩)]).build fun _ => true

/-- What a block in a language without a parser shows of the two names. -/
def namesIn (source : String) : Analysis :=
  (Analysis.ofScan (scanGlossary twoNames source.toList)).hydrate twoNames

/-- A page with one block, whose only name stands at offset 8. -/
def pageWithFetch : PageIds :=
  ((empty "p.md").assembleBlock "p.md#0" "ruby" (namesIn "xxxxxxx fetch")).2

/-- The page after another block under the same id, with the name in the same place. -/
def pageAfterFailure : PageIds :=
  (pageWithFetch.assembleBlock "p.md#0" "ruby" (namesIn "Promise fetch")).2

/-- The second block fails at its second name. A block under an id of its own is taken
all the same. -/
theorem assembleBlock_error_fetch :
    ∃ front : List Draft,
      pageAfterFailure.ids = ((draftRecords front).map (·.id)).reverse ++ pageWithFetch.ids ∧
      ((draftRecords front).map (·.id)).Nodup ∧
      ((∃ out after, pageAfterFailure.assembleBlock "p.md#1" "ruby" (namesIn "Promise") =
          (.ok out, after)) ↔
        ∀ id ∈ (draftRecords front).map (·.id), id ∉ blockIds "p.md#1" (namesIn "Promise")) := by
  have hfail : pageWithFetch.assembleBlock "p.md#0" "ruby" (namesIn "Promise fetch") =
      (.error ⟨"p.md", tokenId "p.md#0" ⟨8, 13⟩⟩, pageAfterFailure) :=
    Prod.ext (by decide +kernel) rfl
  obtain ⟨front, _, _, _, _, _, _, _, hids, _, hnodup, _, hlater⟩ := assembleBlock_error hfail
  refine ⟨front, hids, hnodup, hlater _ _ _ (assembleBlock_ok_iff.mpr ⟨?_, ?_⟩)⟩
  · decide +kernel
  · decide +kernel

/-- Under the same id the name alone is refused, though the page would have taken it
before the failure, and nothing with that id was ever handed out. -/
theorem assembleBlock_error_leaves :
    (pageWithFetch.assembleBlock "p.md#0" "ruby" (namesIn "Promise fetch")).1 =
        .error ⟨"p.md", tokenId "p.md#0" ⟨8, 13⟩⟩ ∧
      pageAfterFailure.ids = tokenId "p.md#0" ⟨0, 7⟩ :: pageWithFetch.ids ∧
      tokenId "p.md#0" ⟨0, 7⟩ ∉ pageWithFetch.ids ∧
      (pageWithFetch.assembleBlock "p.md#0" "ruby" (namesIn "Promise")).1.isOk = true ∧
      (pageAfterFailure.assembleBlock "p.md#0" "ruby" (namesIn "Promise")).1 =
        .error ⟨"p.md", tokenId "p.md#0" ⟨0, 7⟩⟩ :=
  ⟨by decide +kernel, by decide +kernel, by decide +kernel, by decide +kernel, by decide +kernel⟩

/-- A token that stands twice is one too many on any page. -/
example :
    ((empty "p.md").assembleBlock "p.md#0" "ruby"
      { namesIn "fetch" with tokens := (namesIn "fetch").tokens ++ (namesIn "fetch").tokens }).1 =
      .error ⟨"p.md", tokenId "p.md#0" ⟨0, 5⟩⟩ := by
  decide +kernel

end PageIds

end HoverTips
