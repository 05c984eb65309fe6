import Mathlib.Data.List.Basic
import HoverTips.Proofs.Block.Finishing

/-! # What type checking adds

Two flavors share each grammar, and one of them checks initializers. Over one tree
both walks note the same tokens and the same faults; the check adds reports of its
own, and no such report is worded like a fault (`SaysUnassignable`). As errors
are merged when they say the same about the same span, every fault keeps its error
(`Flavor.checking_adds_errors`). -/

namespace HoverTips.Tree

variable {w : Wrapped}

/-! ## Wording -/

/-- Whether a text is worded like a report about an initializer. -/
def SaysUnassignable (message : String) : Prop :=
  "Type '".toList <+: message.toList ∧ "'.".toList <:+ message.toList

instance (message : String) : Decidable (SaysUnassignable message) :=
  inferInstanceAs (Decidable (_ ∧ _))

/-- Every report about an initializer is worded like one. -/
theorem checkInitializer_worded {src : List Char} {cs : List Node} {d : Diagnostic}
    (h : checkInitializer src cs = .ok (some d)) : SaysUnassignable d.message := by
  obtain ⟨declared, value, _, literal, literalTarget, hd⟩ := checkInitializer_report h
  obtain ⟨type, _, hd⟩ := bind_eq_ok_iff.mp hd
  rw [← pure_eq_ok_iff.mp hd]
  simp only [SaysUnassignable, String.toList_append, List.append_assoc]
  exact ⟨List.prefix_append _ _,
    (List.suffix_append _ _).trans ((List.suffix_append _ _).trans
      ((List.suffix_append _ _).trans (List.suffix_append _ _)))⟩

theorem missingMessage_worded (l : Label) : ¬SaysUnassignable (missingMessage l) := by
  have hends : " expected.".toList <:+ (missingMessage l).toList := by
    unfold missingMessage
    split
    · rw [String.toList_append]
      exact List.suffix_append _ _
    · rw [String.toList_append]
      exact (by decide : " expected.".toList <:+ "' expected.".toList).trans
        (List.suffix_append _ _)
  rintro ⟨_, hquote⟩
  have hboth := List.suffix_of_suffix_length_le hquote hends (by decide)
  exact absurd hboth (by decide)

theorem unexpectedMessage_worded (text : List Char) :
    ¬SaysUnassignable (unexpectedMessage text) := by
  have hbegins : "Unexpected token".toList <+: (unexpectedMessage text).toList := by
    unfold unexpectedMessage
    split
    · rw [String.toList_append, String.toList_append, List.append_assoc]
      exact (by decide : "Unexpected token".toList <+: "Unexpected token '".toList).trans
        (List.prefix_append _ _)
    · decide
  rintro ⟨htype, _⟩
  have hboth := List.prefix_of_prefix_length_le htype hbegins (by decide)
  exact absurd hboth (by decide)

/-- No fault is worded like a report about an initializer. -/
theorem syntaxFault_worded {n : Node} {d : Diagnostic}
    (h : syntaxFault w.text w.window n = .ok (some d)) : ¬SaysUnassignable d.message := by
  obtain ⟨_, ho⟩ | ⟨_, text, _, ho⟩ | ⟨_, _, ho⟩ := syntaxFault_cases h
  · cases ho
    exact missingMessage_worded n.label
  · cases ho
    exact unexpectedMessage_worded (Text.trim text)
  · cases ho

/-! ## Errors -/

/-- Whether an error is worded like a report about an initializer. -/
def errorSays (e : Token) : Bool := e.message.any fun m => decide (SaysUnassignable m)

theorem errorSays_of_error? {d : Diagnostic} {e : Token} (h : d.error? w = some e) :
    errorSays e = decide (SaysUnassignable d.message) := by
  obtain ⟨span, _, h⟩ := Diagnostic.error?_eq_some_iff.mp h
  obtain ⟨piece, _, rfl⟩ := Token.errorAt?_eq_some_iff.mp h
  rfl

/-- A filter by wording leaves a diagnostic its error, or takes that error away. -/
theorem filter_addError (errors : List Token) (d : Diagnostic) :
    (addError w errors d).filter (!errorSays ·) =
      if SaysUnassignable d.message then errors.filter (!errorSays ·)
      else addError w (errors.filter (!errorSays ·)) d := by
  unfold addError
  cases hspan : w.reportSpan? d.span with
  | none => simp
  | some span =>
    have hnew : ∀ e ∈ (Token.errorAt? w.source span d.message).toList,
        errorSays e = decide (SaysUnassignable d.message) := fun e he =>
      errorSays_of_error? (Diagnostic.error?_eq_some_iff.mpr ⟨span, hspan, by simpa using he⟩)
    by_cases hworded : SaysUnassignable d.message
    · have hnone : (Token.errorAt? w.source span d.message).toList.filter (!errorSays ·) = [] :=
        List.filter_eq_nil_iff.mpr fun e he => by simp [hnew e he, hworded]
      rw [if_pos hworded]
      dsimp only
      split
      · rfl
      · rw [List.filter_append, hnone, List.append_nil]
    · have hall : (Token.errorAt? w.source span d.message).toList.filter (!errorSays ·) =
          (Token.errorAt? w.source span d.message).toList :=
        List.filter_eq_self.mpr fun e he => by simp [hnew e he, hworded]
      -- an error that says the same is worded alike, so the filter keeps it
      have hany : (errors.filter (!errorSays ·)).any
          (fun e => e.span == span && e.message == some d.message) =
          errors.any fun e => e.span == span && e.message == some d.message := by
        rw [List.any_filter]
        congr 1
        funext e
        by_cases hsame : (e.span == span && e.message == some d.message) = true
        · have hmessage : e.message = some d.message :=
            beq_iff_eq.mp (Bool.and_eq_true_iff.mp hsame).2
          have hkept : errorSays e = false := by simp [errorSays, hmessage, hworded]
          rw [hsame, hkept]
          rfl
        · rw [Bool.eq_false_iff.mpr hsame, Bool.and_false]
      rw [if_neg hworded]
      dsimp only
      rw [hany]
      split
      · rfl
      · rw [List.filter_append, hall]

theorem filter_errorsOf (ds : List Diagnostic) :
    (errorsOf w ds).filter (!errorSays ·) =
      errorsOf w (ds.filter fun d => !decide (SaysUnassignable d.message)) := by
  suffices h : ∀ errors : List Token, (ds.foldl (addError w) errors).filter (!errorSays ·) =
      (ds.filter fun d => !decide (SaysUnassignable d.message)).foldl (addError w)
        (errors.filter (!errorSays ·)) from h []
  induction ds with
  | nil => exact fun errors => rfl
  | cons d ds ih =>
    intro errors
    rw [List.foldl_cons, ih, filter_addError, List.filter_cons]
    by_cases hworded : SaysUnassignable d.message <;> simp [hworded]

/-! ## Findings -/

/-- Whether a finding is worded like a report about an initializer. -/
def Finding.complains : Finding → Bool
  | diagnostic d => decide (SaysUnassignable d.message)
  | sighting _ => false

theorem filter_complains_eq_self {o : Option Finding} (h : ∀ d, o ≠ some (.diagnostic d)) :
    o.filter (!·.complains) = o := by
  cases o with
  | none => rfl
  | some f =>
    cases f with
    | sighting s => rfl
    | diagnostic d => exact absurd rfl (h d)

theorem ruleFinding_unchecked {v : Visit} {o : Option Finding}
    (h : ruleFinding w true v = .ok o) :
    ruleFinding w false v = .ok (o.filter (!·.complains)) := by
  unfold ruleFinding at h ⊢
  split at h
  · rename_i hkind
    rw [if_pos hkind, h, filter_complains_eq_self]
    rintro d rfl
    exact identifierFinding_ne_diagnostic h
  · rename_i hidentifier
    rw [if_neg hidentifier]
    split at h
    · rename_i hkind
      obtain rfl := Except.ok.inj h
      rw [if_pos hkind, filter_complains_eq_self fun d => keywordFinding_ne_diagnostic]
    · rename_i hkeyword
      rw [if_neg hkeyword, Bool.false_and, if_neg Bool.false_ne_true]
      split at h
      · obtain ⟨report, hreport, rfl⟩ := map_eq_ok_iff.mp h
        cases report with
        | none => rfl
        | some d => simp [Finding.complains, Option.filter, checkInitializer_worded hreport]
      · obtain rfl := Except.ok.inj h
        rfl

/-- Without the check, a node gives rise to the same but for the report. -/
theorem finding_unchecked {v : Visit} {o : Option Finding} (h : finding w true v = .ok o) :
    finding w false v = .ok (o.filter (!·.complains)) := by
  rw [finding_eq_ok_iff] at h ⊢
  obtain ⟨d, hfault, rfl⟩ | ⟨hsound, h⟩ := h
  · exact .inl ⟨d, hfault, by simp [Finding.complains, Option.filter, syntaxFault_worded hfault]⟩
  · refine .inr ⟨hsound, ?_⟩
    split at h
    · rename_i hnamed
      rw [if_pos hnamed]
      exact ruleFinding_unchecked h
    · rename_i hnamed
      rw [if_neg hnamed]
      split at h
      · rename_i hkeyword
        obtain rfl := Except.ok.inj h
        rw [if_pos hkeyword, filter_complains_eq_self fun d => keywordFinding_ne_diagnostic]
      · rename_i hkeyword
        obtain rfl := Except.ok.inj h
        rw [if_neg hkeyword]
        rfl

theorem findings_unchecked {root : Node} {fs : List Finding} (h : findings w true root = .ok fs) :
    findings w false root = .ok (fs.filter (!·.complains)) := by
  obtain ⟨hall, rfl⟩ := filterMapM_eq_ok_iff.mp h
  refine filterMapM_eq_ok_iff.mpr ⟨fun v hv => ?_, ?_⟩
  · obtain ⟨o, ho⟩ := hall v hv
    exact ⟨_, finding_unchecked ho⟩
  · rw [List.filter_filterMap]
    refine List.filterMap_congr fun v hv => ?_
    obtain ⟨o, ho⟩ := hall v hv
    simp [ho, finding_unchecked ho, Except.toOption]

theorem sighting?_filter_complains (fs : List Finding) :
    (fs.filter (!·.complains)).filterMap Finding.sighting? = fs.filterMap Finding.sighting? := by
  rw [List.filterMap_filter]
  refine List.filterMap_congr fun f _ => ?_
  cases f with
  | sighting s => rfl
  | diagnostic d =>
    by_cases hworded : SaysUnassignable d.message <;>
      simp [Finding.complains, hworded, Finding.sighting?]

theorem diagnostic?_filter_complains (fs : List Finding) :
    (fs.filter (!·.complains)).filterMap Finding.diagnostic? =
      (fs.filterMap Finding.diagnostic?).filter fun d => !decide (SaysUnassignable d.message) := by
  rw [List.filterMap_filter, List.filter_filterMap]
  refine List.filterMap_congr fun f _ => ?_
  cases f with
  | sighting s => rfl
  | diagnostic d =>
    by_cases hworded : SaysUnassignable d.message <;>
      simp [Finding.complains, hworded, Finding.diagnostic?, Option.filter]

/-! ## Walks -/

/-- The error is that of a fault that a node marks. -/
def AboutFault (w : Wrapped) (root : Node) (e : Token) : Prop :=
  ∃ n ∈ root.nodes, ∃ d, syntaxFault w.text w.window n = .ok (some d) ∧ d.error? w = some e

/-- The error is that of a declaration whose annotation refuses its initializer. -/
def AboutInitializer (w : Wrapped) (root : Node) (e : Token) : Prop :=
  ∃ n ∈ root.nodes, ∃ d, n.Refused w d ∧ d.error? w = some e

theorem AboutFault.not_complains {root : Node} {e : Token} (h : AboutFault w root e) :
    errorSays e = false := by
  obtain ⟨n, _, d, hd, he⟩ := h
  simp [errorSays_of_error? he, syntaxFault_worded hd]

theorem AboutInitializer.complains {root : Node} {e : Token} (h : AboutInitializer w root e) :
    errorSays e = true := by
  obtain ⟨n, _, d, hd, he⟩ := h
  simp [errorSays_of_error? he, checkInitializer_worded hd.report]

/-- No error is about both. -/
theorem AboutFault.not_aboutInitializer {root : Node} {e : Token} (h : AboutFault w root e) :
    ¬AboutInitializer w root e := fun hreport => by
  have hworded := hreport.complains
  rw [h.not_complains] at hworded
  cases hworded

theorem about_of_mem_errors {r : Registry} {typeChecking : Bool} {root : Node} {found : WalkResult}
    (h : walk r w typeChecking root = .ok found) {e : Token} (he : e ∈ found.errors) :
    AboutFault w root e ∨ AboutInitializer w root e := by
  obtain ⟨n, hn, d, hd | ⟨_, hd⟩, hde⟩ := (mem_walk_errors_iff h).mp he
  · exact .inl ⟨n, hn, d, hd, hde⟩
  · exact .inr ⟨n, hn, d, hd, hde⟩

open Classical in
/-- What a walk that checks types finds, beside what one that does not finds: the same
tokens, and the errors of the other one with reports about initializers among them.
Every fault and every report that covers some of the source has its error, and since
the two are never worded alike no error stands for both. -/
structure CheckingAdds (w : Wrapped) (root : Node) (plain checked : WalkResult) : Prop where
  tokens : plain.tokens = checked.tokens
  errors : plain.errors = checked.errors.filter fun e => ¬AboutInitializer w root e
  faults : ∀ e, AboutFault w root e → e ∈ plain.errors ∧ e ∈ checked.errors
  reports : ∀ e, AboutInitializer w root e → e ∈ checked.errors
  apart : ∀ m ∈ root.nodes, ∀ n ∈ root.nodes, ∀ d d', syntaxFault w.text w.window m = .ok (some d) →
    n.Refused w d' → d.message ≠ d'.message ∧ ∀ e, d.error? w = some e → d'.error? w ≠ some e

/-- A walk that checks types finds what the one that does not finds, and reports about
initializers. -/
theorem walk_checkingAdds {r : Registry} {root : Node} {found : WalkResult}
    (h : walk r w true root = .ok found) :
    ∃ plain, walk r w false root = .ok plain ∧ CheckingAdds w root plain found := by
  obtain ⟨fs, hfs, htokens, herrors⟩ := walk_eq_ok_iff.mp h
  have hplain : walk r w false root = .ok ⟨found.tokens, found.errors.filter (!errorSays ·)⟩ := by
    refine walk_eq_ok_iff.mpr ⟨_, findings_unchecked hfs, ?_, ?_⟩
    · rw [sighting?_filter_complains]
      exact htokens
    · rw [diagnostic?_filter_complains, ← filter_errorsOf, herrors]
  refine ⟨_, hplain, rfl, ?_, fun e he => ?_, fun e he => ?_, ?_⟩
  · refine List.filter_congr fun e he => ?_
    rcases about_of_mem_errors h he with hfault | hreport
    · simp [hfault.not_complains, hfault.not_aboutInitializer]
    · simp [hreport.complains, hreport]
  · obtain ⟨n, hn, d, hd, hde⟩ := he
    exact ⟨(mem_walk_errors_iff hplain).mpr ⟨n, hn, d, .inl hd, hde⟩,
      (mem_walk_errors_iff h).mpr ⟨n, hn, d, .inl hd, hde⟩⟩
  · obtain ⟨n, hn, d, hd, hde⟩ := he
    exact (mem_walk_errors_iff h).mpr ⟨n, hn, d, .inr ⟨rfl, hd⟩, hde⟩
  · intro m hm n hn d d' hd hd'
    refine ⟨fun he => syntaxFault_worded hd (he ▸ checkInitializer_worded hd'.report),
      fun e hde hde' => ?_⟩
    have hfault : AboutFault w root e := ⟨m, hm, d, hd, hde⟩
    exact hfault.not_aboutInitializer ⟨n, hn, d', hd', hde'⟩

end HoverTips.Tree

namespace HoverTips

/-- The flavor with the same markup that does not check types. -/
def Flavor.unchecked : Flavor → Flavor
  | typescript | javascript => javascript
  | tsx | jsx => jsx

/-- Of two flavors with one grammar, the one that checks types finds the same tokens with
the same content over every tree, and the same errors in the same order, with reports
about initializers among them; none of these is merged with a fault. Over a tree that
lies in the wrapped text both finish. -/
theorem Flavor.checking_adds_errors (r : Registry) {flavor : Flavor}
    (hchecks : flavor.capabilities.typeChecking = true) (source : List Char) (tree : Tree.Node) :
    flavor.unchecked.grammar = flavor.grammar ∧
    flavor.unchecked.capabilities.typeChecking = false ∧
    (∀ checked, walkFlavor r flavor source (some tree) = .ok checked →
      ∃ plain, walkFlavor r flavor.unchecked source (some tree) = .ok plain ∧
        Tree.CheckingAdds (.ofSource source) tree plain checked) ∧
    (tree.Fits (Wrapped.ofSource source).text →
      ∃ checked, walkFlavor r flavor source (some tree) = .ok checked) := by
  have hplain : flavor.unchecked.capabilities.typeChecking = false := by cases flavor <;> rfl
  refine ⟨?_, hplain, fun checked h => ?_, fun hfits => ?_⟩
  · cases flavor with
    | typescript => rfl
    | tsx => rfl
    | javascript => cases hchecks
    | jsx => cases hchecks
  · rw [walkFlavor, hchecks] at h
    rw [walkFlavor, hplain]
    exact Tree.walk_checkingAdds h
  · exact Tree.walk_succeeds r flavor.capabilities.typeChecking hfits

/-- The string is reported beside a stray quote and a missing semicolon. -/
theorem Flavor.checking_adds_errors_faulty :
    let source := "let é:number='ü'".toList
    Flavor.typescript.capabilities.typeChecking = true ∧
      ∃ checked plain, walkFlavor ⟨.empty, false⟩ .typescript source (some stringForNumber) = .ok checked ∧
        walkFlavor ⟨.empty, false⟩ .javascript source (some stringForNumber) = .ok plain ∧
        checked.errors.length = 3 ∧ plain.errors.length = 2 ∧
        Tree.CheckingAdds (.ofSource source) stringForNumber plain checked := by
  intro source
  have hfits : stringForNumber.Fits (Wrapped.ofSource source).text :=
    Tree.Node.all_iff.mpr (by decide)
  have hlengths : ∀ flavor ∈ [Flavor.typescript, Flavor.javascript],
      (walkFlavor ⟨.empty, false⟩ flavor source (some stringForNumber)).toOption.map (·.errors.length) =
        some (if flavor = .typescript then 3 else 2) := by
    decide +kernel
  have hchecks : Flavor.typescript.capabilities.typeChecking = true := rfl
  obtain ⟨-, -, hadds, hfinishes⟩ :=
    Flavor.checking_adds_errors ⟨.empty, false⟩ hchecks source stringForNumber
  obtain ⟨checked, hchecked⟩ := hfinishes hfits
  obtain ⟨plain, hplain, h⟩ := hadds checked hchecked
  have hthree := hlengths .typescript (by simp)
  have htwo := hlengths .javascript (by simp)
  rw [hchecked] at hthree
  rw [show Flavor.javascript = Flavor.typescript.unchecked from rfl, hplain] at htwo
  exact ⟨rfl, checked, plain, hchecked, hplain, Option.some.inj hthree, Option.some.inj htwo, h⟩

end HoverTips
