import HoverTips.Proofs.Tooltip.Additions

/-! # Each tooltip once a page

Blocks and prose add to one page in any order. While no addition fails, the ids of
the page are those of the tooltips that were handed out, so none is handed out
twice. The note about a tag and the tooltip of a phrase come with the first call
that has them to offer. -/

namespace HoverTips

/-- The tag that a block goes under: `plain` if its info string has none. -/
def tagOf (info : String) : String := if fenceTag info = "" then "plain" else fenceTag info

theorem tagOf_eq (info : String) : tagOf info = noteTag info := by
  simp only [tagOf, noteTag, beq_iff_eq]

/-- A call that adds tooltips to a page. -/
inductive PageCall where
  | block (block info : String) (a : Analysis)
  | prose (text : String)

namespace PageCall

/-- What a call adds to a page. -/
def assemble (triggers : TriggerRegistry) :
    PageCall → PageIds → Except DuplicateId Assembled × PageIds
  | block b info a, p => p.assembleBlock b info a
  | prose text, p => p.assembleProse triggers text

/-- The note about a tag that a call can add. -/
def note? (tag : String) : PageCall → Option TooltipRecord
  | block _ info a => if tagOf info = tag then some (noteRecord tag a) else none
  | prose _ => none

/-- The tooltip for a trigger's id that a call can add: that of the first trigger
with this id which stands in the prose and is not refused. -/
def phrase? (triggers : TriggerRegistry) (id : String) : PageCall → Option TooltipRecord
  | block _ _ _ => none
  | prose text => (triggerRecords (triggers.occurring text)).find? (·.id == id)

theorem note?_block (tag b info : String) (a : Analysis) :
    note? tag (block b info a) = if noteTag info = tag then some (noteRecord tag a) else none := by
  rw [note?, tagOf_eq]

end PageCall

/-- Makes calls on a page, one after the other. -/
def PageIds.answers (triggers : TriggerRegistry) :
    List PageCall → PageIds → List (Except DuplicateId Assembled) × PageIds
  | [], p => ([], p)
  | c :: calls, p =>
    let (out, q) := c.assemble triggers p
    let (outs, after) := answers triggers calls q
    (out :: outs, after)

/-- The tooltips of all answers. -/
def allRecords (outs : List Assembled) : List TooltipRecord := outs.flatMap (·.records)

/-- The tooltips of all answers, each with the number of its call. The first call has
the number `n`. -/
def numbered (n : Nat) (outs : List Assembled) : List (Nat × TooltipRecord) :=
  (outs.zipIdx n).flatMap fun out => out.1.records.map (out.2, ·)

/-- What the first call with an offer offers, with the number of the call. -/
def firstOffer (offer : PageCall → Option TooltipRecord) (n : Nat) (calls : List PageCall) :
    Option (Nat × TooltipRecord) :=
  (calls.zipIdx n).findSome? fun c => (offer c.1).map (c.2, ·)

/-! ## One call -/

/-- A call adds what it offers under an id, unless the page has the id. -/
def OffersOnce (triggers : TriggerRegistry) (id : String)
    (offer : PageCall → Option TooltipRecord) : Prop :=
  ∀ {c : PageCall} {p q : PageIds} {out : Assembled}, c.assemble triggers p = (.ok out, q) →
    out.records.filter (·.id == id) = if id ∈ p.ids then [] else (offer c).toList

variable {triggers : TriggerRegistry} {p q : PageIds}

theorem PageCall.assemble_added {c : PageCall} {out : Assembled}
    (h : c.assemble triggers p = (.ok out, q)) : p.Added out.records q := by
  cases c with
  | block b info a => exact (PageIds.assembleBlock_added h).1
  | prose text => exact (PageIds.acceptTriggers_added h).1

/-- Ids of different kinds differ. -/
theorem filter_of_letter {xs : List TooltipRecord} {id : String}
    (h : ∀ x ∈ xs, idLetter x.id ≠ idLetter id) : xs.filter (·.id == id) = [] := by
  refine List.filter_eq_nil_iff.mpr fun x hx he => h x hx ?_
  rw [beq_iff_eq.mp he]

theorem idLetter_blockRecords {b : String} {a : Analysis} {x : TooltipRecord}
    (hx : x ∈ draftRecords (blockDrafts b a)) :
    idLetter x.id = some 't' ∨ idLetter x.id = some 'e' := by
  have hid : x.id ∈ blockIds b a := by
    rw [blockIds, draftIds_eq]
    exact List.mem_map.mpr ⟨x, hx, rfl⟩
  exact idLetter_blockIds hid

theorem idLetter_triggerRecords {ts : List GlobalTrigger} {x : TooltipRecord}
    (hx : x ∈ triggerRecords ts) : idLetter x.id = some 'g' := by
  obtain ⟨t, _, ht⟩ := List.mem_filterMap.mp hx
  have hrecord : t.request.record = .ok x := by
    cases h : t.request.record with
    | error e => rw [h] at ht; cases ht
    | ok y => rw [h] at ht; cases ht; rfl
  rw [GlobalTrigger.record_id hrecord, GlobalTrigger.idLetter_id]

theorem noteId_injective {s t : String} (h : noteId s = noteId t) : s = t :=
  (String.append_right_inj _).mp h

theorem note_offersOnce (triggers : TriggerRegistry) (tag : String) :
    OffersOnce triggers (noteId tag) (PageCall.note? tag) := by
  intro c p q out h
  cases c with
  | block b info a =>
    have hblock : (draftRecords (blockDrafts b a)).filter (·.id == noteId tag) = [] := by
      refine filter_of_letter fun x hx => ?_
      rcases idLetter_blockRecords hx with hl | hl <;> rw [hl, idLetter_noteId] <;> decide
    rw [(PageIds.assembleBlock_added h).2, List.filter_append, hblock, List.nil_append]
    by_cases htag : noteTag info = tag
    · subst htag
      by_cases hheld : noteId (noteTag info) ∈ p.ids
      · simp [hheld]
      · simp [hheld, PageCall.note?_block]
    · have hne : ¬ noteId (noteTag info) = noteId tag := fun he => htag (noteId_injective he)
      have hnote : (if noteId (noteTag info) ∈ p.ids then []
          else [noteRecord (noteTag info) a]).filter (·.id == noteId tag) = [] := by
        split <;> simp [hne]
      simp [hnote, PageCall.note?_block, htag]
  | prose text =>
    have hprose : out.records.filter (·.id == noteId tag) = [] := by
      refine filter_of_letter fun x hx => ?_
      rw [(PageIds.acceptTriggers_added h).2] at hx
      have hmem := (firstById_sublist _).subset (List.mem_filter.mp hx).1
      rw [idLetter_triggerRecords hmem, idLetter_noteId]
      decide
    simp [hprose, PageCall.note?]

theorem phrase_offersOnce (triggers : TriggerRegistry) (t : GlobalTrigger) :
    OffersOnce triggers t.id (PageCall.phrase? triggers t.id) := by
  intro c p q out h
  cases c with
  | block b info a =>
    have hblock : out.records.filter (·.id == t.id) = [] := by
      refine filter_of_letter fun x hx => ?_
      rw [(PageIds.assembleBlock_added h).2] at hx
      rw [GlobalTrigger.idLetter_id]
      rcases List.mem_append.mp hx with hx | hx
      · rcases idLetter_blockRecords hx with hl | hl <;> rw [hl] <;> decide
      · split at hx
        · cases hx
        · rw [List.mem_singleton.mp hx, noteRecord_id, idLetter_noteId]
          decide
    simp [hblock, PageCall.phrase?]
  | prose text =>
    have hswap : out.records.filter (·.id == t.id) =
        ((firstById (triggerRecords (triggers.occurring text))).filter (·.id == t.id)).filter
          fun x => !p.contains x.id := by
      rw [(PageIds.acceptTriggers_added h).2, List.filter_filter, List.filter_filter]
      exact List.filter_congr fun x _ => Bool.and_comm _ _
    rw [hswap, filter_firstById, PageCall.phrase?]
    cases hfind : (triggerRecords (triggers.occurring text)).find? (·.id == t.id) with
    | none => simp
    | some x =>
      have hid : x.id = t.id := by simpa using List.find?_some hfind
      by_cases hheld : t.id ∈ p.ids
      · simp [hid, hheld, PageIds.contains]
      · simp [hid, hheld, PageIds.contains]

/-! ## Calls in order -/

namespace PageIds

theorem answers_cons_ok {c : PageCall} {calls : List PageCall} {outs : List Assembled}
    (h : answers triggers (c :: calls) p = (outs.map .ok, q)) :
    ∃ out between rest, c.assemble triggers p = (.ok out, between) ∧
      answers triggers calls between = (rest.map .ok, q) ∧ outs = out :: rest := by
  rw [answers, Prod.mk.injEq] at h
  obtain ⟨houts, hafter⟩ := h
  cases outs with
  | nil => cases houts
  | cons out rest =>
    obtain ⟨hout, hrest⟩ := List.cons.inj houts
    exact ⟨out, _, rest, Prod.ext hout rfl, Prod.ext hrest hafter, rfl⟩

theorem answers_added {calls : List PageCall} {outs : List Assembled}
    (h : answers triggers calls p = (outs.map .ok, q)) : p.Added (allRecords outs) q := by
  induction calls generalizing p outs with
  | nil =>
    cases outs with
    | nil =>
      cases h
      exact .refl _
    | cons out rest => cases h
  | cons c calls ih =>
    obtain ⟨out, between, rest, hout, hrest, rfl⟩ := answers_cons_ok h
    exact (PageCall.assemble_added hout).trans (ih hrest)

theorem firstOffer_cons (offer : PageCall → Option TooltipRecord) (n : Nat) (c : PageCall)
    (calls : List PageCall) :
    firstOffer offer n (c :: calls) =
      ((offer c).map (n, ·)).or (firstOffer offer (n + 1) calls) := by
  rw [firstOffer, List.zipIdx_cons, List.findSome?_cons]
  cases offer c <;> rfl

theorem numbered_cons (n : Nat) (out : Assembled) (rest : List Assembled) :
    numbered n (out :: rest) = out.records.map (n, ·) ++ numbered (n + 1) rest := by
  rw [numbered, List.zipIdx_cons, List.flatMap_cons]
  rfl

theorem answers_offer {id : String} {offer : PageCall → Option TooltipRecord}
    (honce : OffersOnce triggers id offer) {calls : List PageCall} {outs : List Assembled}
    (h : answers triggers calls p = (outs.map .ok, q)) (n : Nat) :
    (numbered n outs).filter (·.2.id == id) =
      if id ∈ p.ids then [] else (firstOffer offer n calls).toList := by
  induction calls generalizing p outs n with
  | nil =>
    cases outs with
    | nil => simp [numbered, firstOffer]
    | cons out rest => cases h
  | cons c calls ih =>
    obtain ⟨out, between, rest, hout, hrest, rfl⟩ := answers_cons_ok h
    have hadded := PageCall.assemble_added hout
    have hmade := honce hout
    have hfront : (out.records.map (n, ·)).filter (·.2.id == id) =
        (out.records.filter (·.id == id)).map (n, ·) := by
      rw [List.filter_map]
      rfl
    rw [numbered_cons, List.filter_append, hfront, hmade, ih hrest (n + 1), firstOffer_cons]
    by_cases hheld : id ∈ p.ids
    · have hstill : id ∈ between.ids := hadded.mem_iff.mpr (.inr hheld)
      rw [if_pos hheld, if_pos hstill, if_pos hheld]
      rfl
    · rw [if_neg hheld] at hmade
      rw [if_neg hheld, if_neg hheld]
      cases hoffer : offer c with
      | none =>
        -- the call made nothing under the id, so the page still lacks it
        rw [hoffer] at hmade
        have hstill : id ∉ between.ids := by
          intro hmem
          obtain ⟨x, hx, hid⟩ := List.mem_map.mp ((hadded.mem_iff.mp hmem).resolve_right hheld)
          exact List.filter_eq_nil_iff.mp hmade x hx (by simpa using hid)
        rw [if_neg hstill]
        rfl
      | some x =>
        rw [hoffer] at hmade
        have hnow : id ∈ between.ids := by
          have hx : x ∈ out.records.filter (·.id == id) := by rw [hmade]; exact .head _
          obtain ⟨hmem, hid⟩ := List.mem_filter.mp hx
          exact hadded.mem_iff.mpr (.inl (List.mem_map.mpr ⟨x, hmem, by simpa using hid⟩))
        rw [if_pos hnow]
        rfl

/-- While calls on a page go well, every tooltip comes once. The ids of the page are
those of the tooltips that were handed out, and they differ. The note about a tag
comes with the first block that has the tag, and describes the analysis of that
block. The tooltip for a phrase's id comes with the first prose in which a phrase
with this id stands that is not refused. -/
theorem answers_once (triggers : TriggerRegistry) (page : String) {calls : List PageCall}
    {outs : List Assembled} {after : PageIds}
    (h : answers triggers calls (empty page) = (outs.map .ok, after)) :
    ((allRecords outs).map (·.id)).Nodup ∧
    after.ids.Perm ((allRecords outs).map (·.id)) ∧
    after.size = (allRecords outs).length ∧
    (∀ tag, (numbered 0 outs).filter (·.2.id == "parser-" ++ tag) =
      (firstOffer (PageCall.note? tag) 0 calls).toList) ∧
    (∀ t : GlobalTrigger, (numbered 0 outs).filter (·.2.id == t.id) =
      (firstOffer (PageCall.phrase? triggers t.id) 0 calls).toList) := by
  have hadded := answers_added h
  have hids : after.ids = ((allRecords outs).map (·.id)).reverse := by
    rw [hadded.ids]
    exact List.append_nil _
  refine ⟨hadded.nodup, ?_, ?_, fun tag => ?_, fun t => ?_⟩
  · rw [hids]
    exact List.reverse_perm _
  · rw [size, hids, List.length_reverse, List.length_map]
  · exact (answers_offer (note_offersOnce triggers tag) h 0).trans (if_neg List.not_mem_nil)
  · exact (answers_offer (phrase_offersOnce triggers t) h 0).trans (if_neg List.not_mem_nil)

/-- Two phrases with one id, the first of which is refused for its empty alias. -/
def crowdedTriggers : TriggerRegistry :=
  ⟨[⟨"Hp", [""], "Hit points", "", .light⟩, ⟨"HP", [], "Happy path", "", .dark⟩]⟩

/-- A block with a declaration and a character out of place. -/
def crowdedAnalysis : Analysis :=
  .ofWalk "typescript" ⟨false, true⟩
    [⟨⟨0, 1⟩, .identifier, "x", some (.label "(const variable) x: number"), none⟩]
    [⟨⟨4, 5⟩, .error, "!", none, some "Unexpected token '!'."⟩]

/-- Prose with both phrases, prose with one, and two blocks with one tag. -/
def crowdedCalls : List PageCall :=
  [.prose "Hp or HP", .block "a.md#0" "TS" crowdedAnalysis, .prose "HP again",
    .block "a.md#1" "ts:preview {1}" (.ofScan [])]

def crowdedAnswers : List Assembled :=
  (answers crowdedTriggers crowdedCalls (empty "a.md")).1.filterMap (·.toOption)

/-- The note comes with the first block, and the phrase with the first prose, where
the refused trigger is passed over. -/
theorem answers_once_crowded :
    ∃ after, answers crowdedTriggers crowdedCalls (empty "a.md") =
        (crowdedAnswers.map .ok, after) ∧
      after.size = (allRecords crowdedAnswers).length ∧
      (numbered 0 crowdedAnswers).filter (·.2.id == "parser-ts") =
        [(1, ⟨"parser-ts", ["hover"],
          ⟨"ts block", "Parsers: typescript. JSX: off. Type checking: on.", none, false⟩,
          ⟨.light, .bottom, 8⟩, .fixed, .parser⟩)] ∧
      (numbered 0 crowdedAnswers).filter (·.2.id == "global-hp") =
        [(0, ⟨"global-hp", ["HP"], ⟨"Happy path", "", none, false⟩, ⟨.dark, .bottom, 8⟩, .fixed,
          .global⟩)] := by
  have hok : answers crowdedTriggers crowdedCalls (empty "a.md") =
      (crowdedAnswers.map .ok, (answers crowdedTriggers crowdedCalls (empty "a.md")).2) := by
    decide +kernel
  obtain ⟨_, _, hsize, hnote, hphrase⟩ := answers_once crowdedTriggers "a.md" hok
  have hfirst : firstOffer (PageCall.note? "ts") 0 crowdedCalls =
      some (1, ⟨"parser-ts", ["hover"],
        ⟨"ts block", "Parsers: typescript. JSX: off. Type checking: on.", none, false⟩,
        ⟨.light, .bottom, 8⟩, .fixed, .parser⟩) := by decide +kernel
  have hoffer : firstOffer (PageCall.phrase? crowdedTriggers "global-hp") 0 crowdedCalls =
      some (0, ⟨"global-hp", ["HP"], ⟨"Happy path", "", none, false⟩, ⟨.dark, .bottom, 8⟩, .fixed,
        .global⟩) := by decide +kernel
  have hid : GlobalTrigger.id ⟨"HP", [], "Happy path", "", .dark⟩ = "global-hp" := by
    decide +kernel
  have hHP := hphrase ⟨"HP", [], "Happy path", "", .dark⟩
  rw [hid, hoffer] at hHP
  refine ⟨_, hok, hsize, ?_, hHP⟩
  exact (hnote "ts").trans (congrArg Option.toList hfirst)

end PageIds

end HoverTips
