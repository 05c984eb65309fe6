import HoverTips.Tooltip.Page
import HoverTips.Proofs.Digest

/-! # Ids of a page

Drafts whose ids are new to the page, and differ from each other, are all
accepted. The ids of a block's tooltips say what they are about: they differ for
tokens and errors, between the tokens of one block, between its errors and
between blocks, as far as digests do (`NoCollisions`). Triggers and notes are
looked up before they are added, so they never stand in the way. -/

namespace HoverTips

/-! ## Drafts -/

/-- The ids of the drafts that are not refused. -/
def draftIds (drafts : List Draft) : List String :=
  drafts.filterMap fun d => d.record.toOption.map (·.id)

/-- The ids of a block's tooltips. -/
def blockIds (block : String) (a : Analysis) : List String := draftIds (blockDrafts block a)

theorem draftIds_append (ds es : List Draft) : draftIds (ds ++ es) = draftIds ds ++ draftIds es :=
  List.filterMap_append

/-- A record has the id it was requested with. -/
theorem TooltipRequest.record_id {r : TooltipRequest} {x : TooltipRecord} (h : r.record = .ok x) :
    r.id = some x.id := by
  unfold record at h
  split at h
  · cases h
  · rename_i id hid
    split at h
    · cases h
    · cases h
    · split at h
      · cases h
      · cases h
        exact (Option.filter_eq_some_iff.mp hid).1

theorem TooltipRequest.full_record_id {id : String} {trigger : List String}
    {content : TooltipContent} {kind : TooltipKind} {x : TooltipRecord}
    (h : (full id trigger content kind).record = .ok x) : x.id = id :=
  (Option.some.inj (record_id h)).symm

theorem GlobalTrigger.record_id {t : GlobalTrigger} {x : TooltipRecord}
    (h : t.request.record = .ok x) : x.id = t.id :=
  (Option.some.inj (TooltipRequest.record_id h)).symm

theorem noteDraft_id {tag : String} {a : Analysis} {x : TooltipRecord}
    (h : (noteDraft tag a).record = .ok x) : x.id = noteId tag := by
  simp only [noteDraft] at h
  exact TooltipRequest.full_record_id h

theorem Draft.id_eq_some_iff {d : Draft} {id : String} :
    d.record.toOption.map (·.id) = some id ↔ ∃ x, d.record = .ok x ∧ x.id = id := by
  cases d.record <;> simp [Except.toOption]

theorem mem_draftIds {ds : List Draft} {id : String} :
    id ∈ draftIds ds ↔ ∃ d ∈ ds, ∃ x, d.record = .ok x ∧ x.id = id := by
  simp only [draftIds, List.mem_filterMap, Draft.id_eq_some_iff]

namespace PageIds

theorem contains_iff {p : PageIds} {id : String} : p.contains id = true ↔ id ∈ p.ids :=
  List.contains_iff_mem

/-- Drafts with new and different ids are accepted, and the page has their ids. -/
theorem accept_of_nodup {p : PageIds} {ds : List Draft} (hnodup : (draftIds ds).Nodup)
    (hnew : ∀ id ∈ draftIds ds, id ∉ p.ids) :
    ∃ a after, p.accept ds = (.ok a, after) ∧
      ∀ id ∈ after.ids, id ∈ p.ids ∨ id ∈ draftIds ds := by
  induction ds generalizing p with
  | nil => exact ⟨⟨[], []⟩, p, rfl, fun id h => .inl h⟩
  | cons d ds ih =>
    cases hd : d.record with
    | error refusal =>
      have hids : draftIds (d :: ds) = draftIds ds := by simp [draftIds, hd, Except.toOption]
      rw [hids] at hnodup hnew ⊢
      obtain ⟨a, after, ha, hafter⟩ := ih hnodup hnew
      refine ⟨{ a with rejected := ⟨d.term, refusal⟩ :: a.rejected }, after, ?_, hafter⟩
      simp [accept, hd, ha, Except.map]
    | ok x =>
      have hids : draftIds (d :: ds) = x.id :: draftIds ds := by
        simp [draftIds, hd, Except.toOption]
      rw [hids] at hnodup hnew ⊢
      rw [List.nodup_cons] at hnodup
      rw [List.forall_mem_cons] at hnew
      obtain ⟨a, after, ha, hafter⟩ := ih (p := ⟨p.page, x.id :: p.ids⟩) hnodup.2
        fun id hid hmem => by
          rcases List.mem_cons.mp hmem with rfl | hmem
          · exact hnodup.1 hid
          · exact hnew.2 id hid hmem
      refine ⟨{ a with records := x :: a.records }, after, ?_, fun id hid => ?_⟩
      · simp [accept, hd, contains, hnew.1, ha, Except.map]
      · rcases hafter id hid with hid | hid
        · rcases List.mem_cons.mp hid with rfl | hid
          · exact .inr (.head _)
          · exact .inl hid
        · exact .inr (.tail _ hid)

/-- A single draft is accepted unless the page has its id. -/
theorem accept_single {p : PageIds} (term : String) {id : String}
    {record : Except Refusal TooltipRecord} (hid : ∀ x, record = .ok x → x.id = id) (hnew : id ∉ p.ids) :
    ∃ a after, p.accept [⟨term, record⟩] = (.ok a, after) ∧
      ∀ i ∈ after.ids, i ∈ p.ids ∨ i = id := by
  have hall : ∀ i ∈ draftIds [⟨term, record⟩], i = id := by
    intro i hi
    obtain ⟨d, hd, x, hx, hxi⟩ := mem_draftIds.mp hi
    rw [List.mem_singleton.mp hd] at hx
    rw [← hxi, hid x hx]
  have hnodup : (draftIds [⟨term, record⟩]).Nodup := by
    rw [draftIds, List.filterMap_cons]
    split <;> simp
  obtain ⟨a, after, ha, hafter⟩ := accept_of_nodup (p := p) hnodup fun i hi => by rwa [hall i hi]
  exact ⟨a, after, ha, fun i hi => (hafter i hi).imp_right (hall i)⟩

/-- Adding triggers never fails, and adds no ids but theirs. -/
theorem acceptTriggers_spec (p : PageIds) (ts : List GlobalTrigger) :
    ∃ a after, p.acceptTriggers ts = (.ok a, after) ∧
      ∀ id ∈ after.ids, id ∈ p.ids ∨ ∃ t ∈ ts, id = t.id := by
  induction ts generalizing p with
  | nil => exact ⟨⟨[], []⟩, p, rfl, fun id h => .inl h⟩
  | cons t ts ih =>
    rw [acceptTriggers]
    split
    · obtain ⟨a, after, h, hids⟩ := ih p
      exact ⟨a, after, h, fun id hid => (hids id hid).imp_right fun ⟨u, hu, he⟩ =>
        ⟨u, .tail _ hu, he⟩⟩
    · rename_i hnew
      have hid : ∀ x, t.request.record = .ok x → x.id = t.id := fun _ => GlobalTrigger.record_id
      obtain ⟨first, between, hfirst, hbetween⟩ :=
        accept_single (p := p) t.phrase hid fun hmem =>
          hnew (contains_iff.mpr hmem)
      obtain ⟨a, after, h, hids⟩ := ih between
      refine ⟨⟨first.records ++ a.records, first.rejected ++ a.rejected⟩, after, ?_, ?_⟩
      · simp [hfirst, h, Except.map]
      · intro id hid
        rcases hids id hid with hid | ⟨u, hu, he⟩
        · exact (hbetween id hid).imp_right fun he => ⟨t, .head _, he⟩
        · exact .inr ⟨u, .tail _ hu, he⟩

theorem acceptThen_ok {p between after : PageIds} {drafts : List Draft}
    (more : PageIds → List Draft) {first second : Assembled}
    (hfirst : p.accept drafts = (.ok first, between))
    (hsecond : between.accept (more between) = (.ok second, after)) :
    ∃ out, p.acceptThen drafts more = (.ok out, after) :=
  ⟨⟨first.records ++ second.records, first.rejected ++ second.rejected⟩, by
    simp [acceptThen, hfirst, hsecond, Except.map]⟩

/-- The note about a tag's parsers is only added to a page that lacks it. -/
theorem accept_note (p : PageIds) (tag : String) (a : Analysis) :
    ∃ out after, p.accept (if p.contains (noteId tag) then [] else [noteDraft tag a]) =
        (.ok out, after) ∧
      ∀ id ∈ after.ids, id ∈ p.ids ∨ id = noteId tag := by
  split
  · exact ⟨⟨[], []⟩, p, rfl, fun _ => .inl⟩
  · rename_i hnew
    exact accept_single _ (fun _ => noteDraft_id) fun hmem => hnew (contains_iff.mpr hmem)

/-- Adding a block whose ids are new and different never fails. -/
theorem assembleBlock_spec {p : PageIds} {block : String} (info : String) {a : Analysis}
    (hnodup : (blockIds block a).Nodup) (hnew : ∀ id ∈ blockIds block a, id ∉ p.ids) :
    ∃ out after, p.assembleBlock block info a = (.ok out, after) ∧
      ∀ id ∈ after.ids, id ∈ p.ids ∨ id ∈ blockIds block a ∨ ∃ tag, id = noteId tag := by
  obtain ⟨first, between, hfirst, hbetween⟩ := accept_of_nodup hnodup hnew
  obtain ⟨second, after, hsecond, hafter⟩ := between.accept_note (noteTag info) a
  obtain ⟨out, hout⟩ := acceptThen_ok
    (fun q => if q.contains (noteId (noteTag info)) then [] else [noteDraft (noteTag info) a])
    hfirst hsecond
  refine ⟨out, after, hout, fun id hid => ?_⟩
  rcases hafter id hid with hid | he
  · exact (hbetween id hid).imp_right .inl
  · exact .inr (.inr ⟨_, he⟩)

end PageIds

/-! ## Ids of a block -/

/-- The id of a token's tooltip. -/
def tokenId (block : String) (s : Span) : String :=
  "tok-" ++ Digest.hex (Digest.ofSpan block s.start s.stop)

/-- The id of an error's tooltip. -/
def errorId (block : String) (s : Span) (message : String) : String :=
  "err-" ++ Digest.hex (Digest.ofMessage block s.start s.stop message)

theorem tokenId_injective {b c : String} {s t : Span} (h : tokenId b s = tokenId c t) :
    Digest.ofSpan b s.start s.stop = Digest.ofSpan c t.start t.stop :=
  Digest.hex_injective ((String.append_right_inj _).mp h)

theorem errorId_injective {b c m n : String} {s t : Span} (h : errorId b s m = errorId c t n) :
    Digest.ofMessage b s.start s.stop m = Digest.ofMessage c t.start t.stop n :=
  Digest.hex_injective ((String.append_right_inj _).mp h)

theorem tokenDraft_id {block : String} {t : Token} {d : Draft} {x : TooltipRecord}
    (hd : tokenDraft block t = some d) (hx : d.record = .ok x) :
    t.info.isSome = true ∧ x.id = tokenId block t.span := by
  obtain ⟨info, hinfo, rfl⟩ := Option.map_eq_some_iff.mp hd
  simp only at hx
  exact ⟨by rw [hinfo]; rfl, TooltipRequest.full_record_id hx⟩

theorem errorDraft_record_id {block : String} {e : Token} {x : TooltipRecord}
    (hx : (errorDraft block e).record = .ok x) :
    x.id = errorId block e.span (e.message.getD "Syntax error.") := by
  simp only [errorDraft] at hx
  exact TooltipRequest.full_record_id hx

theorem errorDraft_id {block m : String} {e : Token} {x : TooltipRecord}
    (hm : e.message = some m) (hx : (errorDraft block e).record = .ok x) :
    x.id = errorId block e.span m := by
  rw [errorDraft_record_id hx, hm, Option.getD_some]

/-- The kind of an id shows in its first letter. -/
def idLetter (id : String) : Option Char := id.toList.head?

theorem idLetter_tokenId (b : String) (s : Span) : idLetter (tokenId b s) = some 't' := by
  simp [idLetter, tokenId]

theorem idLetter_errorId (b m : String) (s : Span) : idLetter (errorId b s m) = some 'e' := by
  simp [idLetter, errorId]

theorem tokenId_ne_errorId {b c m : String} {s t : Span} : tokenId b s ≠ errorId c t m := by
  intro h
  have hletter := idLetter_errorId c m t
  rw [← h, idLetter_tokenId] at hletter
  cases hletter

theorem idLetter_noteId (tag : String) : idLetter (noteId tag) = some 'p' := by
  simp [idLetter, noteId]

theorem GlobalTrigger.idLetter_id (t : GlobalTrigger) : idLetter t.id = some 'g' := by
  simp [idLetter, id]

/-- No finding of an analysis stands there twice. -/
structure Analysis.Distinct (a : Analysis) : Prop where
  tokens : a.tokens.Pairwise fun t u => t.span ≠ u.span
  errors : a.errors.Pairwise fun d e => ¬(d.span = e.span ∧ d.message = e.message)
  marked : ∀ e ∈ a.errors, e.message.isSome = true

theorem mem_tokenIds {block id : String} {tokens : List Token}
    (h : id ∈ draftIds (tokens.filterMap (tokenDraft block))) :
    ∃ t ∈ tokens, t.info.isSome = true ∧ id = tokenId block t.span := by
  obtain ⟨d, hd, x, hx, rfl⟩ := mem_draftIds.mp h
  obtain ⟨t, ht, hd⟩ := List.mem_filterMap.mp hd
  obtain ⟨hinfo, hid⟩ := tokenDraft_id hd hx
  exact ⟨t, ht, hinfo, hid⟩

theorem mem_errorIds {block id : String} {errors : List Token}
    (hmarked : ∀ e ∈ errors, e.message.isSome = true)
    (h : id ∈ draftIds (errors.map (errorDraft block))) :
    ∃ e ∈ errors, ∃ m, e.message = some m ∧ id = errorId block e.span m := by
  obtain ⟨d, hd, x, hx, rfl⟩ := mem_draftIds.mp h
  obtain ⟨e, he, rfl⟩ := List.mem_map.mp hd
  obtain ⟨m, hm⟩ := Option.isSome_iff_exists.mp (hmarked e he)
  exact ⟨e, he, m, hm, errorDraft_id hm hx⟩

/-- Every id of a block's tooltips is a token's or an error's. -/
theorem mem_blockIds {block id : String} {a : Analysis} (ha : a.Distinct)
    (h : id ∈ blockIds block a) :
    (∃ t ∈ a.tokens, t.info.isSome = true ∧ id = tokenId block t.span) ∨
      ∃ e ∈ a.errors, ∃ m, e.message = some m ∧ id = errorId block e.span m := by
  rw [blockIds, blockDrafts, draftIds_append] at h
  exact (List.mem_append.mp h).imp mem_tokenIds (mem_errorIds ha.marked)

theorem idLetter_blockIds {block id : String} {a : Analysis} (h : id ∈ blockIds block a) :
    idLetter id = some 't' ∨ idLetter id = some 'e' := by
  rw [blockIds, blockDrafts, draftIds_append] at h
  rcases List.mem_append.mp h with h | h
  · obtain ⟨t, _, _, rfl⟩ := mem_tokenIds h
    exact .inl (idLetter_tokenId _ _)
  · obtain ⟨d, hd, x, hx, rfl⟩ := mem_draftIds.mp h
    obtain ⟨e, _, rfl⟩ := List.mem_map.mp hd
    rw [errorDraft_record_id hx]
    exact .inr (idLetter_errorId _ _ _)

/-- Digests tell apart what the tooltips of some blocks are about. -/
structure NoCollisions (blocks : List (String × Analysis)) : Prop where
  spans : ∀ {b c : String} {a d : Analysis} {t u : Token}, (b, a) ∈ blocks → (c, d) ∈ blocks →
    t ∈ a.tokens → u ∈ d.tokens → t.info.isSome = true → u.info.isSome = true →
      Digest.ofSpan b t.span.start t.span.stop = Digest.ofSpan c u.span.start u.span.stop →
        b = c ∧ t.span = u.span
  messages : ∀ {b c m n : String} {a d : Analysis} {e f : Token}, (b, a) ∈ blocks →
    (c, d) ∈ blocks → e ∈ a.errors → f ∈ d.errors → e.message = some m → f.message = some n →
      Digest.ofMessage b e.span.start e.span.stop m =
          Digest.ofMessage c f.span.start f.span.stop n →
        b = c ∧ e.span = f.span ∧ m = n

variable {blocks : List (String × Analysis)} {b c : String} {a d : Analysis}

/-- The ids of one block differ. -/
theorem blockIds_nodup (h : NoCollisions blocks) (hb : (b, a) ∈ blocks) (ha : a.Distinct) :
    (blockIds b a).Nodup := by
  rw [blockIds, blockDrafts, draftIds_append]
  refine List.nodup_append.mpr ⟨?_, ?_, ?_⟩
  · rw [draftIds, List.filterMap_filterMap]
    refine List.pairwise_filterMap.mpr (ha.tokens.imp_of_mem fun {t u} ht hu hne i hi j hj he => ?_)
    obtain ⟨dt, hdt, hi⟩ := Option.bind_eq_some_iff.mp hi
    obtain ⟨du, hdu, hj⟩ := Option.bind_eq_some_iff.mp hj
    obtain ⟨x, hx, rfl⟩ := Draft.id_eq_some_iff.mp hi
    obtain ⟨y, hy, rfl⟩ := Draft.id_eq_some_iff.mp hj
    obtain ⟨hti, hxi⟩ := tokenDraft_id hdt hx
    obtain ⟨hui, hyi⟩ := tokenDraft_id hdu hy
    rw [hxi, hyi] at he
    exact hne (h.spans hb hb ht hu hti hui (tokenId_injective he)).2
  · rw [draftIds, List.filterMap_map]
    refine List.pairwise_filterMap.mpr (ha.errors.imp_of_mem fun {e f} he hf hne i hi j hj hij => ?_)
    obtain ⟨x, hx, rfl⟩ := Draft.id_eq_some_iff.mp hi
    obtain ⟨y, hy, rfl⟩ := Draft.id_eq_some_iff.mp hj
    obtain ⟨m, hm⟩ := Option.isSome_iff_exists.mp (ha.marked e he)
    obtain ⟨n, hn⟩ := Option.isSome_iff_exists.mp (ha.marked f hf)
    rw [errorDraft_id hm hx, errorDraft_id hn hy] at hij
    obtain ⟨_, hspan, rfl⟩ := h.messages hb hb he hf hm hn (errorId_injective hij)
    exact hne ⟨hspan, hm.trans hn.symm⟩
  · intro i hi j hj he
    obtain ⟨t, _, _, rfl⟩ := mem_tokenIds hi
    obtain ⟨e, _, m, _, rfl⟩ := mem_errorIds ha.marked hj
    exact tokenId_ne_errorId he

/-- The ids of different blocks differ. -/
theorem blockIds_disjoint (h : NoCollisions blocks) (hb : (b, a) ∈ blocks) (hc : (c, d) ∈ blocks)
    (hne : b ≠ c) (ha : a.Distinct) (hd : d.Distinct) {id : String} (hid : id ∈ blockIds b a) :
    id ∉ blockIds c d := by
  intro hid'
  obtain ⟨t, ht, hti, rfl⟩ | ⟨e, he, m, hm, rfl⟩ := mem_blockIds ha hid
  · obtain ⟨u, hu, hui, hij⟩ | ⟨f, _, n, _, hij⟩ := mem_blockIds hd hid'
    · exact hne (h.spans hb hc ht hu hti hui (tokenId_injective hij)).1
    · exact tokenId_ne_errorId hij
  · obtain ⟨u, _, _, hij⟩ | ⟨f, hf, n, hn, hij⟩ := mem_blockIds hd hid'
    · exact tokenId_ne_errorId hij.symm
    · exact hne (h.messages hb hc he hf hm hn (errorId_injective hij)).1

end HoverTips
