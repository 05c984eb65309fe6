import HoverTips.Proofs.Tooltip.Ids

/-! # What an addition leaves on a page

An addition that goes well leaves the ids of its tooltips on the page, and
nothing else. Which tooltips these are is said without the page: those of the
drafts that are not refused, the note about a tag unless the page has it, and of
the triggers the first one for each id that the page lacks. -/

namespace HoverTips

/-- The tooltips of the drafts that are not refused. -/
def draftRecords (drafts : List Draft) : List TooltipRecord :=
  drafts.filterMap fun d => d.record.toOption

theorem draftIds_eq (drafts : List Draft) :
    draftIds drafts = (draftRecords drafts).map (·.id) := by
  simp [draftIds, draftRecords, List.map_filterMap]

/-- What the note says about the optional checks. -/
def checksSentence : Capabilities → String
  | ⟨false, false⟩ => "JSX: off. Type checking: off."
  | ⟨false, true⟩ => "JSX: off. Type checking: on."
  | ⟨true, false⟩ => "JSX: on. Type checking: off."
  | ⟨true, true⟩ => "JSX: on. Type checking: on."

/-- The tooltip with the note about a tag's parsers: it names them in order, says which
checks ran, and whether no language parser finished. -/
def noteRecord (tag : String) (a : Analysis) : TooltipRecord where
  id := "parser-" ++ tag
  trigger := ["hover"]
  content :=
    { title := tag ++ " block"
      description := "Parsers: " ++ ", ".intercalate a.parsers ++ ". " ++
        checksSentence a.capabilities ++
          match a.usesFallback with
          | true => " Definitions only."
          | false => ""
      color := none
      isError := false }
  appearance := ⟨.light, .bottom, 8⟩
  portal := .fixed
  kind := .parser

@[simp]
theorem noteRecord_id (tag : String) (a : Analysis) : (noteRecord tag a).id = noteId tag := rfl

theorem checksSentence_eq (c : Capabilities) :
    checksSentence c =
      "JSX: " ++ onOff c.jsx ++ ". Type checking: " ++ onOff c.typeChecking ++ "." := by
  obtain ⟨jsx, checks⟩ := c
  cases jsx <;> cases checks <;> rfl

theorem noteRecord_eq (tag : String) (a : Analysis) :
    noteRecord tag a =
      ⟨noteId tag, ["hover"], .plain (tag ++ " block") (noteText a), .standard, .fixed,
        .parser⟩ := by
  have htext : (noteRecord tag a).content.description = noteText a := by
    have hjsx : ". JSX: " = ". " ++ "JSX: " := rfl
    simp only [noteRecord, noteText, checksSentence_eq, hjsx, String.append_assoc]
    cases a.usesFallback <;> rfl
  rw [← htext]
  rfl

theorem not_blank_append {front : String} (h : Text.isBlank front.toList = false)
    (back : String) : Text.isBlank (front ++ back).toList = false := by
  rw [String.toList_append, Text.isBlank, List.all_append, ← Text.isBlank, h, Bool.false_and]

/-- A request with an id and one word is not refused. -/
theorem TooltipRequest.full_record {id word : String} {content : TooltipContent}
    {kind : TooltipKind} (hid : Text.isBlank id.toList = false) (hword : word ≠ "") :
    (full id [word] content kind).record =
      .ok ⟨id, [word], content, .standard, .fixed, kind⟩ := by
  simp [record, full, Option.filter, hid, hword]

theorem noteDraft_record (tag : String) (a : Analysis) :
    (noteDraft tag a).record = .ok (noteRecord tag a) := by
  rw [noteRecord_eq]
  exact TooltipRequest.full_record (not_blank_append (by decide) tag) (by decide)

namespace PageIds

/-- One page is another one with the ids of some tooltips, which are new to it and
differ. -/
structure Added (p : PageIds) (records : List TooltipRecord) (q : PageIds) : Prop where
  ids : q.ids = (records.map (·.id)).reverse ++ p.ids
  fresh : ∀ x ∈ records, x.id ∉ p.ids
  nodup : (records.map (·.id)).Nodup

variable {p q r : PageIds} {xs ys : List TooltipRecord}

theorem Added.refl (p : PageIds) : p.Added [] p := ⟨rfl, by simp, .nil⟩

theorem Added.mem_iff (h : p.Added xs q) {id : String} :
    id ∈ q.ids ↔ id ∈ xs.map (·.id) ∨ id ∈ p.ids := by
  rw [h.ids, List.mem_append, List.mem_reverse]

theorem Added.trans (h : p.Added xs q) (k : q.Added ys r) : p.Added (xs ++ ys) r where
  ids := by rw [k.ids, h.ids]; simp
  fresh := by
    intro x hx hmem
    rcases List.mem_append.mp hx with hx | hx
    · exact h.fresh x hx hmem
    · exact k.fresh x hx (h.mem_iff.mpr (.inr hmem))
  nodup := by
    rw [List.map_append]
    refine List.nodup_append.mpr ⟨h.nodup, k.nodup, ?_⟩
    intro i hi j hj he
    obtain ⟨y, hy, rfl⟩ := List.mem_map.mp hj
    exact k.fresh y hy (h.mem_iff.mpr (.inl (he ▸ hi)))

theorem Added.single {x : TooltipRecord} (h : x.id ∉ p.ids) :
    p.Added [x] ⟨p.page, x.id :: p.ids⟩ :=
  ⟨rfl, by simpa using h, by simp⟩

/-! ## Drafts -/

theorem map_eq_ok_iff {out : Except DuplicateId Assembled × PageIds} {f : Assembled → Assembled}
    {a : Assembled} : (out.1.map f, out.2) = (.ok a, q) ↔ ∃ b, out = (.ok b, q) ∧ f b = a := by
  obtain ⟨outcome, after⟩ := out
  cases outcome with
  | error e => simp [Except.map]
  | ok b =>
    simp only [Except.map, Prod.mk.injEq, Except.ok.injEq, and_assoc, exists_eq_left']
    exact and_comm

/-- A first draft that goes well is refused, or its tooltip is new to the page. -/
theorem accept_cons_ok {d : Draft} {ds : List Draft} {a : Assembled}
    (h : p.accept (d :: ds) = (.ok a, q)) :
    (∃ refusal b, d.record = .error refusal ∧ p.accept ds = (.ok b, q) ∧
      a = ⟨b.records, ⟨d.term, refusal⟩ :: b.rejected⟩) ∨
    ∃ x b, d.record = .ok x ∧ x.id ∉ p.ids ∧ accept ⟨p.page, x.id :: p.ids⟩ ds = (.ok b, q) ∧
      a = ⟨x :: b.records, b.rejected⟩ := by
  rw [accept] at h
  split at h
  · rename_i refusal hd
    obtain ⟨b, hb, ha⟩ := map_eq_ok_iff.mp h
    exact .inl ⟨refusal, b, hd, hb, ha.symm⟩
  · rename_i x hd
    split at h
    · cases h
    · rename_i hnew
      obtain ⟨b, hb, ha⟩ := map_eq_ok_iff.mp h
      exact .inr ⟨x, b, hd, fun hmem => hnew (contains_iff.mpr hmem), hb, ha.symm⟩

theorem accept_added {ds : List Draft} {a : Assembled} (h : p.accept ds = (.ok a, q)) :
    p.Added a.records q ∧ a.records = draftRecords ds := by
  induction ds generalizing p a with
  | nil =>
    cases h
    exact ⟨.refl _, rfl⟩
  | cons d ds ih =>
    obtain ⟨refusal, b, hd, hb, rfl⟩ | ⟨x, b, hd, hnew, hb, rfl⟩ := accept_cons_ok h
    · obtain ⟨hadded, hrecords⟩ := ih hb
      exact ⟨hadded, by simp [draftRecords, hd, Except.toOption, hrecords]⟩
    · obtain ⟨hadded, hrecords⟩ := ih hb
      exact ⟨(Added.single hnew).trans hadded, by
        simp [draftRecords, hd, Except.toOption, hrecords]⟩

theorem acceptThen_added {ds : List Draft} {more : PageIds → List Draft} {a : Assembled}
    (h : p.acceptThen ds more = (.ok a, q)) :
    p.Added a.records q ∧ ∃ between, p.Added (draftRecords ds) between ∧
      a.records = draftRecords ds ++ draftRecords (more between) := by
  unfold acceptThen at h
  split at h
  · cases h
  · rename_i first between hfirst
    obtain ⟨second, hsecond, rfl⟩ := map_eq_ok_iff.mp h
    obtain ⟨hadded, hrecords⟩ := accept_added hfirst
    obtain ⟨hadded', hrecords'⟩ := accept_added hsecond
    exact ⟨hadded.trans hadded', between, hrecords ▸ hadded, by simp [hrecords, hrecords']⟩

/-! ## Blocks -/

/-- A block adds the tooltips of its tokens and errors, and the note about its tag
if the page lacks it. -/
theorem assembleBlock_added {block info : String} {a : Analysis} {out : Assembled}
    (h : p.assembleBlock block info a = (.ok out, q)) :
    p.Added out.records q ∧
      out.records = draftRecords (blockDrafts block a) ++
        if noteId (noteTag info) ∈ p.ids then [] else [noteRecord (noteTag info) a] := by
  obtain ⟨hadded, between, hbetween, hrecords⟩ := acceptThen_added h
  have hnote : noteId (noteTag info) ∈ between.ids ↔ noteId (noteTag info) ∈ p.ids := by
    rw [hbetween.mem_iff, ← draftIds_eq]
    refine ⟨fun h => h.resolve_left fun hid => ?_, .inr⟩
    rcases idLetter_blockIds hid with h | h <;> rw [idLetter_noteId] at h <;> cases h
  refine ⟨hadded, ?_⟩
  rw [hrecords]
  congr 1
  by_cases hheld : noteId (noteTag info) ∈ p.ids
  · rw [if_pos hheld, if_pos (contains_iff.mpr (hnote.mpr hheld))]
    rfl
  · rw [if_neg hheld, if_neg fun h => hheld (hnote.mp (contains_iff.mp h))]
    simp [draftRecords, noteDraft_record, Except.toOption]

end PageIds

/-! ## Triggers -/

/-- The tooltips of the triggers that are not refused. -/
def triggerRecords (triggers : List GlobalTrigger) : List TooltipRecord :=
  triggers.filterMap fun t => t.request.record.toOption

theorem triggerRecords_cons_ok {t : GlobalTrigger} {x : TooltipRecord}
    (h : t.request.record = .ok x) (ts : List GlobalTrigger) :
    triggerRecords (t :: ts) = x :: triggerRecords ts := by
  simp [triggerRecords, h, Except.toOption]

theorem triggerRecords_cons_error {t : GlobalTrigger} {refusal : Refusal}
    (h : t.request.record = .error refusal) (ts : List GlobalTrigger) :
    triggerRecords (t :: ts) = triggerRecords ts := by
  simp [triggerRecords, h, Except.toOption]

/-- Of the tooltips that share an id, the first. -/
def firstById : List TooltipRecord → List TooltipRecord
  | [] => []
  | x :: xs => x :: (firstById xs).filter (·.id != x.id)

theorem firstById_sublist (xs : List TooltipRecord) : (firstById xs).Sublist xs := by
  induction xs with
  | nil => exact .slnil
  | cons x xs ih => exact (List.filter_sublist.trans ih).cons_cons x

theorem firstById_nodup (xs : List TooltipRecord) : ((firstById xs).map (·.id)).Nodup := by
  induction xs with
  | nil => exact .nil
  | cons x xs ih =>
    rw [firstById, List.map_cons, List.nodup_cons]
    refine ⟨?_, ih.sublist (List.filter_sublist.map _)⟩
    intro hmem
    obtain ⟨y, hy, he⟩ := List.mem_map.mp hmem
    have hne := (List.mem_filter.mp hy).2
    simp [he] at hne

/-- Nothing is left out exactly when no id is shared. -/
theorem firstById_eq_self_iff {xs : List TooltipRecord} :
    firstById xs = xs ↔ (xs.map (·.id)).Nodup := by
  refine ⟨fun h => h ▸ firstById_nodup xs, fun h => ?_⟩
  induction xs with
  | nil => rfl
  | cons x xs ih =>
    rw [List.map_cons, List.nodup_cons] at h
    rw [firstById, ih h.2]
    congr 1
    refine List.filter_eq_self.mpr fun y hy => ?_
    have hne : y.id ≠ x.id := fun he => h.1 (List.mem_map.mpr ⟨y, hy, he⟩)
    simpa using hne

/-- The tooltip that is kept for an id is the first that has it. -/
theorem filter_firstById (id : String) (xs : List TooltipRecord) :
    (firstById xs).filter (·.id == id) = (xs.find? (·.id == id)).toList := by
  induction xs with
  | nil => rfl
  | cons x xs ih =>
    rw [firstById]
    by_cases hx : x.id = id
    · have hnone : ((firstById xs).filter (·.id != x.id)).filter (·.id == id) = [] := by
        rw [List.filter_filter]
        refine List.filter_eq_nil_iff.mpr fun y _ => ?_
        simp [hx]
      rw [List.filter_cons_of_pos (by simpa using hx), hnone,
        List.find?_cons_of_pos (by simpa using hx)]
      rfl
    · have hsame : ((firstById xs).filter (·.id != x.id)).filter (·.id == id) =
          (firstById xs).filter (·.id == id) := by
        rw [List.filter_filter]
        refine List.filter_congr fun y _ => ?_
        by_cases hy : y.id = id
        · have hne : ¬ id = x.id := fun he => hx he.symm
          simp [hy, hne]
        · simp [hy]
      rw [List.filter_cons_of_neg (by simpa using hx), hsame, ih,
        List.find?_cons_of_neg (by simpa using hx)]

/-- A tooltip is kept when it is the first that has its id. -/
theorem mem_firstById_iff {xs : List TooltipRecord} {x : TooltipRecord} :
    x ∈ firstById xs ↔ xs.find? (·.id == x.id) = some x := by
  have hid : (x.id == x.id) = true := beq_self_eq_true _
  calc x ∈ firstById xs ↔ x ∈ (firstById xs).filter (·.id == x.id) := by
        rw [List.mem_filter]
        exact ⟨fun h => ⟨h, hid⟩, And.left⟩
    _ ↔ xs.find? (·.id == x.id) = some x := by
        rw [filter_firstById, Option.mem_toList]

namespace PageIds

variable {p q : PageIds}

/-- A first trigger whose addition goes well is passed over, as the page has its id,
or it is refused, or its tooltip is new to the page. -/
theorem acceptTriggers_cons_ok {t : GlobalTrigger} {ts : List GlobalTrigger} {a : Assembled}
    (h : p.acceptTriggers (t :: ts) = (.ok a, q)) :
    (t.id ∈ p.ids ∧ p.acceptTriggers ts = (.ok a, q)) ∨
    (t.id ∉ p.ids ∧ ∃ refusal b, t.request.record = .error refusal ∧
      p.acceptTriggers ts = (.ok b, q) ∧ a = ⟨b.records, ⟨t.phrase, refusal⟩ :: b.rejected⟩) ∨
    (t.id ∉ p.ids ∧ ∃ x b, t.request.record = .ok x ∧
      acceptTriggers ⟨p.page, x.id :: p.ids⟩ ts = (.ok b, q) ∧
      a = ⟨x :: b.records, b.rejected⟩) := by
  rw [acceptTriggers] at h
  split at h
  · rename_i hheld
    exact .inl ⟨contains_iff.mp hheld, h⟩
  · rename_i hcontains
    have hnew : t.id ∉ p.ids := fun hmem => hcontains (contains_iff.mpr hmem)
    refine .inr ?_
    split at h
    · cases h
    · rename_i first between hfirst
      obtain ⟨b, hb, rfl⟩ := map_eq_ok_iff.mp h
      obtain ⟨refusal, none, hd, hnone, rfl⟩ | ⟨x, none, hd, _, hnone, rfl⟩ :=
        accept_cons_ok hfirst
      · dsimp only at hd
        rw [accept, Prod.mk.injEq, Except.ok.injEq] at hnone
        obtain ⟨rfl, rfl⟩ := hnone
        exact .inl ⟨hnew, refusal, b, hd, hb, by simp⟩
      · dsimp only at hd
        rw [accept, Prod.mk.injEq, Except.ok.injEq] at hnone
        obtain ⟨rfl, rfl⟩ := hnone
        exact .inr ⟨hnew, x, b, hd, hb, by simp⟩

theorem lacks_firstById_of_mem {x : TooltipRecord} (hx : x.id ∈ p.ids) (xs : List TooltipRecord) :
    (firstById (x :: xs)).filter (fun y => !p.contains y.id) =
      (firstById xs).filter fun y => !p.contains y.id := by
  have hheld : p.contains x.id = true := contains_iff.mpr hx
  rw [firstById, List.filter_cons_of_neg (by simp [hheld]), List.filter_filter]
  refine List.filter_congr fun y _ => ?_
  by_cases hy : y.id = x.id
  · simp [hy, hheld]
  · simp [hy]

theorem lacks_firstById_of_notMem {x : TooltipRecord} (hx : x.id ∉ p.ids)
    (xs : List TooltipRecord) :
    (firstById (x :: xs)).filter (fun y => !p.contains y.id) =
      x :: (firstById xs).filter fun y => !contains ⟨p.page, x.id :: p.ids⟩ y.id := by
  have hnew : p.contains x.id = false := by simpa [contains] using hx
  rw [firstById, List.filter_cons_of_pos (by simp [hnew]), List.filter_filter]
  congr 1
  refine List.filter_congr fun y _ => ?_
  by_cases hy : y.id = x.id
  · simp [hy, contains]
  · simp [hy, contains]

/-- Triggers add the first tooltip for each id that the page lacks. -/
theorem acceptTriggers_added {ts : List GlobalTrigger} {a : Assembled}
    (h : p.acceptTriggers ts = (.ok a, q)) :
    p.Added a.records q ∧
      a.records = (firstById (triggerRecords ts)).filter fun x => !p.contains x.id := by
  -- each case compares what the page lacks before the first trigger and after it
  induction ts generalizing p a with
  | nil =>
    cases h
    exact ⟨.refl _, rfl⟩
  | cons t ts ih =>
    obtain ⟨hheld, h⟩ | ⟨hnew, refusal, b, hd, hb, rfl⟩ | ⟨hnew, x, b, hd, hb, rfl⟩ :=
      acceptTriggers_cons_ok h
    · obtain ⟨hadded, hrecords⟩ := ih h
      refine ⟨hadded, ?_⟩
      rw [hrecords]
      cases hd : t.request.record with
      | error refusal => rw [triggerRecords_cons_error hd]
      | ok x =>
        have hx : x.id ∈ p.ids := by rwa [GlobalTrigger.record_id hd]
        rw [triggerRecords_cons_ok hd, lacks_firstById_of_mem hx]
    · obtain ⟨hadded, hrecords⟩ := ih hb
      refine ⟨hadded, ?_⟩
      rw [triggerRecords_cons_error hd, ← hrecords]
    · have hx : x.id ∉ p.ids := by rwa [GlobalTrigger.record_id hd]
      obtain ⟨hadded, hrecords⟩ := ih hb
      refine ⟨(Added.single hx).trans hadded, ?_⟩
      rw [triggerRecords_cons_ok hd, lacks_firstById_of_notMem hx, ← hrecords]

end PageIds

end HoverTips
