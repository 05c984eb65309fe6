import HoverTips.Proofs.Text.Runs
import HoverTips.Proofs.Tree.Findings

/-! # What is reported about a block

Three kinds of nodes are reported: those over text that the grammar could not
place, those that stand for a token the source lacks, and declarations whose
annotation refuses their initializer. The errors of a walk are those of such
nodes, as far as they lie in the source, and every such node has its error
(`FaultsReported`). -/

namespace HoverTips.Tree

open Text (byteLength isBoundary isSpace)

variable {w : Wrapped} {n : Node}

/-! ## Faulty nodes -/

/-- The part of the wrapped text that a node and the source share. -/
def Node.shared (w : Wrapped) (n : Node) : Span :=
  ⟨max n.span.start w.window.start, min n.span.stop w.window.stop⟩

/-- The node covers text that the grammar could not place, some of it in the
source. -/
structure Node.Unplaced (w : Wrapped) (n : Node) : Prop where
  error : n.label.isError = true
  present : n.label.isMissing = false
  meets : (n.shared w).start < (n.shared w).stop

/-- The node stands for a token that the source lacks. -/
structure Node.Lacking (w : Wrapped) (n : Node) : Prop where
  missing : n.label.isMissing = true
  inside : w.Locates n.span

/-- The node is a declaration whose annotation refuses its initializer, and a
report says so. -/
structure Node.Refused (w : Wrapped) (n : Node) (d : Diagnostic) : Prop where
  declares : n.isNamed = true ∧ isCheckedDeclaration n.kind = true
  sound : n.label.isMissing = false ∧ ¬n.Unplaced w
  report : checkInitializer w.text n.children = .ok (some d)

/-- An error over the text that a node could not be placed with: it covers what
the node shares with the source, without the white space at the ends unless
that is all there is. -/
def Node.UnplacedError (w : Wrapped) (n : Node) (e : Token) : Prop :=
  ∃ before text after lead core trail,
    w.source = before ++ text ++ after ∧ Text.Trims text lead core trail ∧
      n.shared w =
        ⟨wrapperOffset + byteLength before, wrapperOffset + byteLength before + byteLength text⟩ ∧
      e.span = (if core = [] then ⟨byteLength before, byteLength before + byteLength text⟩
        else ⟨byteLength (before ++ lead), byteLength (before ++ lead) + byteLength core⟩) ∧
      e.message = some (unexpectedMessage core)

/-- An error with a message, over what a report about a span covers. -/
def ErrorAbout (w : Wrapped) (s : Span) (message : String) (e : Token) : Prop :=
  w.Covers s e.span ∧ e.message = some message

theorem meet?_window_eq_some_iff {s : Span} :
    n.span.meet? w.window = some s ↔ (n.shared w).start < (n.shared w).stop ∧ s = n.shared w :=
  Span.meet?_eq_some_iff

/-- What a node marks: a missing token, text out of place, or nothing. -/
theorem syntaxFault_cases {o : Option Diagnostic} (h : syntaxFault w.text w.window n = .ok o) :
    (n.label.isMissing = true ∧ o = some ⟨n.span, missingMessage n.label⟩) ∨
      (n.Unplaced w ∧ ∃ text, readSpan w.text (n.shared w) = .ok text ∧
        o = some ⟨trimSpan (n.shared w) text, unexpectedMessage (Text.trim text)⟩) ∨
      (n.label.isMissing = false ∧ ¬n.Unplaced w ∧ o = none) := by
  unfold syntaxFault at h
  split at h
  · rename_i hmissing
    exact .inl ⟨hmissing, (Except.ok.inj h).symm⟩
  · rename_i hpresent
    have hpresent : n.label.isMissing = false := by simpa using hpresent
    split at h
    · rename_i herror
      split at h
      · rename_i hnone
        refine .inr (.inr ⟨hpresent, fun hu => ?_, (Except.ok.inj h).symm⟩)
        rw [meet?_window_eq_some_iff.mpr ⟨hu.meets, rfl⟩] at hnone
        cases hnone
      · rename_i s hs
        obtain ⟨hmeets, rfl⟩ := meet?_window_eq_some_iff.mp hs
        obtain ⟨text, htext, h⟩ := bind_eq_ok_iff.mp h
        exact .inr (.inl ⟨⟨herror, hpresent, hmeets⟩, text, htext, (pure_eq_ok_iff.mp h).symm⟩)
    · rename_i hplaced
      exact .inr (.inr ⟨hpresent, fun hu => hplaced hu.error, (Except.ok.inj h).symm⟩)

theorem syntaxFault_of_missing (h : n.label.isMissing = true) :
    syntaxFault w.text w.window n = .ok (some ⟨n.span, missingMessage n.label⟩) :=
  if_pos h

theorem syntaxFault_of_unplaced {text : List Char} (h : n.Unplaced w)
    (htext : readSpan w.text (n.shared w) = .ok text) :
    syntaxFault w.text w.window n =
      .ok (some ⟨trimSpan (n.shared w) text, unexpectedMessage (Text.trim text)⟩) := by
  rw [syntaxFault, h.present, if_neg Bool.false_ne_true, if_pos h.error,
    meet?_window_eq_some_iff.mpr ⟨h.meets, rfl⟩]
  exact bind_eq_ok_iff.mpr ⟨text, htext, rfl⟩

theorem syntaxFault_eq_none_iff :
    syntaxFault w.text w.window n = .ok none ↔ n.label.isMissing = false ∧ ¬n.Unplaced w := by
  constructor
  · intro h
    obtain ⟨_, ho⟩ | ⟨_, _, _, ho⟩ | ⟨hpresent, hplaced, _⟩ := syntaxFault_cases h
    · cases ho
    · cases ho
    · exact ⟨hpresent, hplaced⟩
  · rintro ⟨hpresent, hplaced⟩
    rw [syntaxFault, hpresent, if_neg Bool.false_ne_true]
    split
    · rename_i herror
      have hnone : n.span.meet? w.window = none := Option.eq_none_iff_forall_ne_some.mpr
        fun s hs => hplaced ⟨herror, hpresent, (meet?_window_eq_some_iff.mp hs).1⟩
      rw [hnone]
    · rfl

/-! ## Diagnostics -/

theorem isCheckedDeclaration_only {kind : String} (h : isCheckedDeclaration kind = true) :
    isIdentifierKind kind = false ∧ isKeywordLiteral kind = false := by
  unfold isCheckedDeclaration at h
  split at h
  iterate 4 exact ⟨rfl, rfl⟩
  cases h

theorem keywordFinding_ne_diagnostic {d : Diagnostic} :
    keywordFinding w n ≠ some (.diagnostic d) := by
  intro h
  obtain ⟨span, _, h⟩ := Option.map_eq_some_iff.mp h
  cases h

theorem identifierFinding_ne_diagnostic {v : Visit} {d : Diagnostic} :
    identifierFinding w v ≠ .ok (some (.diagnostic d)) := by
  intro h
  unfold identifierFinding at h
  split at h
  · cases h
  · obtain ⟨name, _, h⟩ := bind_eq_ok_iff.mp h
    obtain ⟨info, _, h⟩ := bind_eq_ok_iff.mp h
    cases pure_eq_ok_iff.mp h

theorem ruleFinding_diagnostic_iff {typeChecking : Bool} {v : Visit} {d : Diagnostic} :
    ruleFinding w typeChecking v = .ok (some (.diagnostic d)) ↔
      typeChecking = true ∧ isCheckedDeclaration v.node.kind = true ∧
        checkInitializer w.text v.node.children = .ok (some d) := by
  constructor
  · intro h
    unfold ruleFinding at h
    split at h
    · exact absurd h identifierFinding_ne_diagnostic
    · split at h
      · exact absurd (Except.ok.inj h) keywordFinding_ne_diagnostic
      · split at h
        · rename_i hchecked
          rw [Bool.and_eq_true] at hchecked
          obtain ⟨o, ho, h⟩ := map_eq_ok_iff.mp h
          obtain ⟨d', rfl, h⟩ := Option.map_eq_some_iff.mp h
          cases h
          exact ⟨hchecked.1, hchecked.2, ho⟩
        · cases h
  · rintro ⟨rfl, hchecked, hd⟩
    obtain ⟨hidentifier, hkeyword⟩ := isCheckedDeclaration_only hchecked
    rw [ruleFinding, hidentifier, hkeyword, hchecked, hd]
    rfl

/-- A node is diagnosed for the fault it marks, or for its initializer. -/
theorem finding_diagnostic_iff {typeChecking : Bool} {v : Visit} {d : Diagnostic} :
    finding w typeChecking v = .ok (some (.diagnostic d)) ↔
      syntaxFault w.text w.window v.node = .ok (some d) ∨
        typeChecking = true ∧ v.node.Refused w d := by
  rw [finding_eq_ok_iff, syntaxFault_eq_none_iff]
  constructor
  · rintro (⟨d', hd', h⟩ | ⟨hsound, h⟩)
    · cases h
      exact .inl hd'
    · split at h
      · rename_i hnamed
        obtain ⟨ht, hchecked, hd⟩ := ruleFinding_diagnostic_iff.mp h
        exact .inr ⟨ht, ⟨hnamed, hchecked⟩, hsound, hd⟩
      · split at h
        · exact absurd (Except.ok.inj h) keywordFinding_ne_diagnostic
        · cases h
  · rintro (hd | ⟨ht, ⟨hnamed, hchecked⟩, hsound, hd⟩)
    · exact .inl ⟨d, hd, rfl⟩
    · refine .inr ⟨hsound, ?_⟩
      rw [if_pos hnamed]
      exact ruleFinding_diagnostic_iff.mpr ⟨ht, hchecked, hd⟩

/-! ## Errors -/

theorem error?_of_report {d : Diagnostic} {before piece after : List Char}
    (h : w.source = before ++ piece ++ after) (hne : piece ≠ [])
    (hd : w.reportSpan? d.span = some ⟨byteLength before, byteLength before + byteLength piece⟩) :
    d.error? w = some ⟨⟨byteLength before, byteLength before + byteLength piece⟩, .error,
      String.ofList piece, none, some d.message⟩ :=
  Diagnostic.error?_eq_some_iff.mpr ⟨_, hd, Token.errorAt?_eq_some_iff.mpr
    ⟨piece, Span.select?_eq_some_iff.mpr ⟨hne, before, after, h, rfl⟩, rfl⟩⟩

/-- A diagnostic about a span in the source has an error. -/
theorem error?_of_locates {d : Diagnostic} (hne : w.source ≠ []) (h : w.Locates d.span)
    (hs : isBoundary w.text d.span.start = true) (he : isBoundary w.text d.span.stop = true) :
    ∃ e, d.error? w = some e ∧ ErrorAbout w d.span d.message e := by
  obtain ⟨before, piece, after, hcs, hpiece, hreport, hcovers⟩ :=
    Wrapped.reportSpan?_of_locates hne h hs he
  exact ⟨_, error?_of_report hcs hpiece hreport, hcovers, rfl⟩

theorem errorAbout_of_error? {d : Diagnostic} {e : Token} (hne : w.source ≠ [])
    (h : w.Locates d.span) (hs : isBoundary w.text d.span.start = true)
    (hstop : isBoundary w.text d.span.stop = true) (he : d.error? w = some e) :
    ErrorAbout w d.span d.message e := by
  obtain ⟨e', he', habout⟩ := error?_of_locates hne h hs hstop
  rwa [← Option.some.inj (he'.symm.trans he)]

/-- No other diagnostic has one. -/
theorem locates_of_error? {d : Diagnostic} {e : Token} (h : d.error? w = some e)
    (hle : d.span.start ≤ d.span.stop) (hs : isBoundary w.text d.span.start = true) :
    w.Locates d.span := by
  obtain ⟨span, hspan, _⟩ := Diagnostic.error?_eq_some_iff.mp h
  exact Wrapped.locates_of_reportSpan? hspan hle hs

/-- Text out of place has its error, whatever white space is around it. -/
theorem Node.Unplaced.error? (h : n.Unplaced w) (hfits : n.label.Fits w.text) :
    ∃ text e, readSpan w.text (n.shared w) = .ok text ∧
      (⟨trimSpan (n.shared w) text, unexpectedMessage (Text.trim text)⟩ : Diagnostic).error? w =
        some e ∧ n.UnplacedError w e := by
  have hstart : isBoundary w.text (n.shared w).start = true :=
    Text.isBoundary_max hfits.starts Wrapped.isBoundary_window_start
  have hstop : isBoundary w.text (n.shared w).stop = true :=
    Text.isBoundary_min hfits.stops Wrapped.isBoundary_window_stop
  obtain ⟨before, text, after, hcs, hne, hshared⟩ :=
    Wrapped.piece_of_window h.meets (Nat.le_max_right _ _) (Nat.min_le_right _ _) hstart hstop
  have hread : readSpan w.text (n.shared w) = .ok text := by
    rw [hshared, readSpan, Wrapped.cut_text hcs]
  obtain ⟨trail, htrims⟩ := Text.trim_trims text
  have hcore := htrims.core_eq_nil_iff
  refine ⟨text, ?_⟩
  by_cases hblank : Text.isBlank text = true
  · have hspan : trimSpan (n.shared w) text = n.shared w := if_pos hblank
    refine ⟨_, hread, error?_of_report hcs hne ?_, before, text, after, _, _, trail, hcs, htrims,
      hshared, (if_pos (hcore.mpr hblank)).symm, rfl⟩
    rw [hspan, Wrapped.reportSpan?_of_lt h.meets, hshared, Wrapped.toSource?_piece hcs hne]
  · have hfull : Text.trim text ≠ [] := fun h => hblank (hcore.mp h)
    have hcs' : w.source = (before ++ text.takeWhile isSpace) ++ Text.trim text ++ (trail ++ after) := by
      rw [hcs]
      conv => lhs; rw [htrims.parts]
      simp
    have hspan : trimSpan (n.shared w) text =
        ⟨wrapperOffset + byteLength (before ++ text.takeWhile isSpace),
          wrapperOffset + byteLength (before ++ text.takeWhile isSpace) +
            byteLength (Text.trim text)⟩ := by
      rw [trimSpan, if_neg hblank, hshared, Text.byteLength_append, Nat.add_assoc]
    refine ⟨_, hread, error?_of_report hcs' hfull ?_, before, text, after, _, _, trail, hcs, htrims,
      hshared, (if_neg hfull).symm, rfl⟩
    have hpos := Text.byteLength_pos_iff.mpr hfull
    rw [hspan, Wrapped.reportSpan?_of_lt (Nat.lt_add_of_pos_right hpos),
      Wrapped.toSource?_piece hcs' hfull]

theorem checkInitializer_report {src : List Char} {cs : List Node} {d : Diagnostic}
    (h : checkInitializer src cs = .ok (some d)) :
    ∃ declared, ∃ value ∈ cs, ∃ literal literalTarget,
      initializerDiagnostic src declared value literal literalTarget = .ok d := by
  unfold checkInitializer at h
  split at h
  · rename_i note value _ hvalue
    split at h
    · cases h
    · rename_i declared _
      obtain ⟨literal, _, h⟩ := bind_eq_ok_iff.mp h
      split at h
      · cases pure_eq_ok_iff.mp h
      · obtain ⟨verdict, _, h⟩ := bind_eq_ok_iff.mp h
        split at h
        · obtain ⟨d', hd', he⟩ := map_eq_ok_iff.mp h
          rw [Option.some.inj he] at hd'
          exact ⟨declared, value, field?_mem hvalue, _, _, hd'⟩
        · cases pure_eq_ok_iff.mp h
  · cases h

/-- A report about an initializer is about its span. -/
theorem checkInitializer_span {src : List Char} {cs : List Node} {d : Diagnostic}
    (h : checkInitializer src cs = .ok (some d)) : ∃ value ∈ cs, d.span = value.span := by
  obtain ⟨declared, value, hvalue, literal, literalTarget, hd⟩ := checkInitializer_report h
  obtain ⟨type, _, hd⟩ := bind_eq_ok_iff.mp hd
  exact ⟨value, hvalue, by rw [← pure_eq_ok_iff.mp hd]⟩

/-! ## Walks -/

/-- The errors of a block are those of the faulty nodes of its tree. -/
structure FaultsReported (w : Wrapped) (typeChecking : Bool) (root : Node) (errors : List Token) :
    Prop where
  unplaced : ∀ n ∈ root.nodes, n.Unplaced w → ∃ e ∈ errors, n.UnplacedError w e
  lacking : ∀ n ∈ root.nodes, n.Lacking w →
    ∃ e ∈ errors, ErrorAbout w n.span (missingMessage n.label) e
  refused : typeChecking = true → ∀ n ∈ root.nodes, ∀ d, n.Refused w d → w.Locates d.span →
    ∃ e ∈ errors, ErrorAbout w d.span d.message e
  only : ∀ e ∈ errors, ∃ n ∈ root.nodes,
    (n.Unplaced w ∧ n.UnplacedError w e) ∨
      (n.Lacking w ∧ ErrorAbout w n.span (missingMessage n.label) e) ∨
      (typeChecking = true ∧ ∃ d, n.Refused w d ∧ w.Locates d.span ∧ ErrorAbout w d.span d.message e)
  distinct : errors.Pairwise fun d e => ¬(d.span = e.span ∧ d.message = e.message)

theorem mem_walk_errors_iff {r : Registry} {typeChecking : Bool} {root : Node} {found : WalkResult}
    (h : walk r w typeChecking root = .ok found) {e : Token} :
    e ∈ found.errors ↔ ∃ n ∈ root.nodes, ∃ d,
      (syntaxFault w.text w.window n = .ok (some d) ∨ typeChecking = true ∧ n.Refused w d) ∧
        d.error? w = some e := by
  obtain ⟨fs, hfs, _, herrors⟩ := walk_eq_ok_iff.mp h
  rw [herrors, mem_errorsOf_iff]
  constructor
  · rintro ⟨d, hd, he⟩
    obtain ⟨f, hf, hfd⟩ := List.mem_filterMap.mp hd
    cases f with
    | sighting s => cases hfd
    | diagnostic d' =>
      obtain rfl : d' = d := Option.some.inj hfd
      obtain ⟨v, hv, hfind⟩ := (mem_findings_iff hfs).mp hf
      exact ⟨v.node, List.mem_map.mpr ⟨v, hv, rfl⟩, d', finding_diagnostic_iff.mp hfind, he⟩
  · rintro ⟨n, hn, d, hd, he⟩
    obtain ⟨v, hv, rfl⟩ := List.mem_map.mp hn
    exact ⟨d, List.mem_filterMap.mpr ⟨.diagnostic d,
      (mem_findings_iff hfs).mpr ⟨v, hv, finding_diagnostic_iff.mpr hd⟩, rfl⟩, he⟩

theorem Node.Refused.fits {d : Diagnostic} (h : n.Refused w d) (hfits : n.Fits w.text) :
    d.span.start ≤ d.span.stop ∧ isBoundary w.text d.span.start = true ∧
      isBoundary w.text d.span.stop = true := by
  obtain ⟨value, hvalue, hspan⟩ := checkInitializer_span h.report
  have hv := (hfits.children value hvalue).label
  rw [hspan]
  exact ⟨hv.ordered, hv.starts, hv.stops⟩

/-- The errors of a walk are those of the faulty nodes. -/
theorem walk_faultsReported {r : Registry} {typeChecking : Bool} {root : Node}
    {found : WalkResult} (h : walk r w typeChecking root = .ok found) (hne : w.source ≠ [])
    (hfits : root.Fits w.text) : FaultsReported w typeChecking root found.errors := by
  have hnodes : ∀ n ∈ root.nodes, n.Fits w.text := fun _ hn => hfits.of_mem_nodes hn
  refine ⟨fun n hn hu => ?_, fun n hn hl => ?_, fun ht n hn d hd hloc => ?_, fun e he => ?_,
    (walk_errors_built h).distinct⟩
  · obtain ⟨text, e, htext, he, herror⟩ := hu.error? (hnodes n hn).label
    exact ⟨e, (mem_walk_errors_iff h).mpr
      ⟨n, hn, _, .inl (syntaxFault_of_unplaced hu htext), he⟩, herror⟩
  · have hl' := (hnodes n hn).label
    obtain ⟨e, he, habout⟩ :=
      error?_of_locates (d := ⟨n.span, missingMessage n.label⟩) hne hl.inside hl'.starts hl'.stops
    exact ⟨e, (mem_walk_errors_iff h).mpr
      ⟨n, hn, _, .inl (syntaxFault_of_missing hl.missing), he⟩, habout⟩
  · obtain ⟨_, hs, hstop⟩ := hd.fits (hnodes n hn)
    obtain ⟨e, he, habout⟩ := error?_of_locates hne hloc hs hstop
    exact ⟨e, (mem_walk_errors_iff h).mpr ⟨n, hn, d, .inr ⟨ht, hd⟩, he⟩, habout⟩
  · obtain ⟨n, hn, d, hd, he⟩ := (mem_walk_errors_iff h).mp he
    have hl := (hnodes n hn).label
    refine ⟨n, hn, ?_⟩
    rcases hd with hd | ⟨ht, hd⟩
    · obtain ⟨hmissing, ho⟩ | ⟨hu, text, htext, ho⟩ | ⟨_, _, ho⟩ := syntaxFault_cases hd
      · cases ho
        have hloc := locates_of_error? he hl.ordered hl.starts
        exact .inr (.inl ⟨⟨hmissing, hloc⟩, errorAbout_of_error? hne hloc hl.starts hl.stops he⟩)
      · cases ho
        obtain ⟨text', e', htext', he', herror⟩ := hu.error? hl
        obtain rfl : text' = text := Except.ok.inj (htext'.symm.trans htext)
        obtain rfl : e' = e := Option.some.inj (he'.symm.trans he)
        exact .inl ⟨hu, herror⟩
      · cases ho
    · obtain ⟨hle, hs, hstop⟩ := hd.fits (hnodes n hn)
      have hloc := locates_of_error? he hle hs
      exact .inr (.inr ⟨ht, d, hd, hloc, errorAbout_of_error? hne hloc hs hstop he⟩)

/-- A block has no errors exactly when no node of its tree is faulty in it. -/
theorem FaultsReported.eq_nil_iff {typeChecking : Bool} {root : Node} {errors : List Token}
    (h : FaultsReported w typeChecking root errors) :
    errors = [] ↔ ∀ n ∈ root.nodes, ¬n.Unplaced w ∧ ¬n.Lacking w ∧
      (typeChecking = true → ∀ d, n.Refused w d → ¬w.Locates d.span) := by
  constructor
  · rintro rfl n hn
    refine ⟨fun hu => ?_, fun hl => ?_, fun ht d hd hloc => ?_⟩
    · obtain ⟨e, he, _⟩ := h.unplaced n hn hu
      cases he
    · obtain ⟨e, he, _⟩ := h.lacking n hn hl
      cases he
    · obtain ⟨e, he, _⟩ := h.refused ht n hn d hd hloc
      cases he
  · intro hnone
    refine List.eq_nil_iff_forall_not_mem.mpr fun e he => ?_
    obtain ⟨n, hn, hfault⟩ := h.only e he
    obtain ⟨hu, hl, hd⟩ := hnone n hn
    rcases hfault with hfault | hfault | ⟨ht, d, hrefused, hloc, _⟩
    · exact hu hfault.1
    · exact hl hfault.1
    · exact hd ht d hrefused hloc

end HoverTips.Tree
