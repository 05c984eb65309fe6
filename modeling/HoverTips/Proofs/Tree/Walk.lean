import HoverTips.Tree.Walk
import HoverTips.Proofs.Token.Placement
import HoverTips.Proofs.Tree.Results

/-! # What a walk hands over

Tokens are the sightings in order, each over its span of the source. Errors are
the diagnostics that cover something, each once: two errors differ in their
span or in their message. -/

namespace HoverTips.Tree

/-! ## Errors -/

/-- The error of a diagnostic, if it covers something of the source. -/
def Diagnostic.error? (w : Wrapped) (d : Diagnostic) : Option Token :=
  (w.reportSpan? d.span).bind fun span => Token.errorAt? w.source span d.message

theorem Diagnostic.error?_eq_some_iff {w : Wrapped} {d : Diagnostic} {e : Token} :
    d.error? w = some e ↔
      ∃ span, w.reportSpan? d.span = some span ∧
        Token.errorAt? w.source span d.message = some e :=
  Option.bind_eq_some_iff

/-- Errors that say the same about the same span are one error. -/
theorem errorAt?_same {source : List Char} {s t : Span} {m n : String} {d e : Token}
    (hd : Token.errorAt? source s m = some d) (he : Token.errorAt? source t n = some e)
    (hs : d.span = e.span) (hm : d.message = e.message) : d = e := by
  obtain ⟨p, hp, rfl⟩ := Token.errorAt?_eq_some_iff.mp hd
  obtain ⟨q, hq, rfl⟩ := Token.errorAt?_eq_some_iff.mp he
  obtain rfl : s = t := hs
  obtain rfl : m = n := Option.some.inj hm
  obtain rfl : p = q := Option.some.inj (hp.symm.trans hq)
  rfl

/-- What a list of errors keeps to while diagnostics are added: they are error
tokens over the source, and no two say the same. -/
structure Reported (w : Wrapped) (errors : List Token) : Prop where
  built : ∀ e ∈ errors, ∃ span message, Token.errorAt? w.source span message = some e
  distinct : errors.Pairwise fun d e => ¬(d.span = e.span ∧ d.message = e.message)

theorem addError_step {w : Wrapped} {errors : List Token} (h : Reported w errors)
    (d : Diagnostic) :
    Reported w (addError w errors d) ∧
      ∀ e, e ∈ addError w errors d ↔ e ∈ errors ∨ d.error? w = some e := by
  unfold addError
  split
  · rename_i hnone
    exact ⟨h, fun e => by simp [Diagnostic.error?, hnone]⟩
  · rename_i span hspan
    have herr : d.error? w = Token.errorAt? w.source span d.message := by
      simp [Diagnostic.error?, hspan]
    split
    · rename_i hdup
      -- the new error stands there already
      obtain ⟨old, hold, hsame⟩ := List.any_eq_true.mp hdup
      rw [Bool.and_eq_true, beq_iff_eq, beq_iff_eq] at hsame
      refine ⟨h, fun e => ⟨.inl, fun he => he.elim id fun he => ?_⟩⟩
      obtain ⟨s, m, hs⟩ := h.built old hold
      rw [herr] at he
      obtain ⟨p, _, rfl⟩ := Token.errorAt?_eq_some_iff.mp he
      rwa [← errorAt?_same hs he hsame.1 hsame.2]
    · rename_i hnew
      cases he : Token.errorAt? w.source span d.message with
      | none => exact ⟨by simpa using h, fun e => by simp [herr, he]⟩
      | some new =>
        refine ⟨⟨fun e hm => ?_, ?_⟩, fun e => by simp [herr, he, eq_comm]⟩
        · rcases List.mem_append.mp hm with hm | hm
          · exact h.built e hm
          · obtain rfl : e = new := by simpa using hm
            exact ⟨_, _, he⟩
        · refine List.pairwise_append.mpr ⟨h.distinct, by simp, fun a ha b hb hab => hnew ?_⟩
          obtain rfl : b = new := by simpa using hb
          obtain ⟨p, _, rfl⟩ := Token.errorAt?_eq_some_iff.mp he
          exact List.any_eq_true.mpr ⟨a, ha, by simp [hab.1, hab.2]⟩

theorem foldl_addError {w : Wrapped} (ds : List Diagnostic) {errors : List Token}
    (h : Reported w errors) :
    Reported w (ds.foldl (addError w) errors) ∧
      ∀ e, e ∈ ds.foldl (addError w) errors ↔ e ∈ errors ∨ ∃ d ∈ ds, d.error? w = some e := by
  induction ds generalizing errors with
  | nil => exact ⟨h, by simp⟩
  | cons d ds ih =>
    obtain ⟨hstep, hmem⟩ := addError_step h d
    obtain ⟨hrun, hall⟩ := ih hstep
    refine ⟨hrun, fun e => ?_⟩
    rw [List.foldl_cons, hall, hmem, or_assoc]
    simp

theorem errorsOf_reported (w : Wrapped) (ds : List Diagnostic) : Reported w (errorsOf w ds) :=
  (foldl_addError ds ⟨by simp, .nil⟩).1

/-- The errors are those of the diagnostics: none is lost and none is made up. -/
theorem mem_errorsOf_iff {w : Wrapped} {ds : List Diagnostic} {e : Token} :
    e ∈ errorsOf w ds ↔ ∃ d ∈ ds, d.error? w = some e := by
  rw [errorsOf, (foldl_addError ds ⟨by simp, .nil⟩).2]
  simp

/-! ## Tokens -/

theorem Sighting.token_eq_ok_iff {r : Registry} {declared : List (String × HoverInfo)}
    {source : List Char} {s : Sighting} {t : Token} :
    s.token r declared source = .ok t ↔
      ∃ piece, s.span.select? source = some piece ∧
        t = ⟨s.span, s.kind, String.ofList piece, s.info r declared (String.ofList piece), none⟩ := by
  unfold Sighting.token
  constructor
  · intro h
    split at h
    · rename_i u hu
      obtain ⟨piece, hp, rfl⟩ := Token.at?_eq_some_iff.mp hu
      exact ⟨piece, hp, (Except.ok.inj h).symm⟩
    · cases h
  · rintro ⟨piece, hp, rfl⟩
    rw [Token.at?_eq_some_iff.mpr ⟨piece, hp, rfl⟩]

/-! ## Walks -/

/-- A walk that finishes has findings for all nodes, a token for each sighting,
and the errors of the diagnostics. -/
theorem walk_eq_ok_iff {r : Registry} {w : Wrapped} {typeChecking : Bool} {root : Node}
    {found : WalkResult} :
    walk r w typeChecking root = .ok found ↔
      ∃ fs, findings w typeChecking root = .ok fs ∧
        (fs.filterMap Finding.sighting?).map
            (Sighting.token r (declarations (fs.filterMap Finding.sighting?)) w.source) =
          found.tokens.map Except.ok ∧
        found.errors = errorsOf w (fs.filterMap Finding.diagnostic?) := by
  unfold walk
  rw [bind_eq_ok_iff]
  refine exists_congr fun fs => and_congr_right fun _ => ?_
  rw [bind_eq_ok_iff]
  constructor
  · rintro ⟨tokens, ht, h⟩
    rw [← pure_eq_ok_iff.mp h]
    exact ⟨mapM_eq_ok_iff.mp ht, rfl⟩
  · rintro ⟨ht, he⟩
    exact ⟨found.tokens, mapM_eq_ok_iff.mpr ht, by rw [← he]; rfl⟩

/-- The spans of a walk's tokens are those of its sightings. -/
theorem spans_of_tokens {r : Registry} {declared : List (String × HoverInfo)} {source : List Char}
    {sightings : List Sighting} {tokens : List Token}
    (h : sightings.map (Sighting.token r declared source) = tokens.map Except.ok) :
    tokens.map Token.span = sightings.map Sighting.span := by
  induction sightings generalizing tokens with
  | nil =>
    obtain rfl : tokens = [] := by simpa using h.symm
    rfl
  | cons s sightings ih =>
    cases tokens with
    | nil => cases h
    | cons t tokens =>
      obtain ⟨ht, hts⟩ := List.cons.inj h
      obtain ⟨piece, _, rfl⟩ := Sighting.token_eq_ok_iff.mp ht
      rw [List.map_cons, List.map_cons, ih hts]

theorem walk_tokens_placed {r : Registry} {w : Wrapped} {typeChecking : Bool} {root : Node}
    {found : WalkResult} (h : walk r w typeChecking root = .ok found) :
    ∀ t ∈ found.tokens, t.Placed w.source := by
  intro t ht
  obtain ⟨fs, _, htokens, _⟩ := walk_eq_ok_iff.mp h
  have hmem : Except.ok t ∈ found.tokens.map (Except.ok (ε := WalkError)) :=
    List.mem_map.mpr ⟨t, ht, rfl⟩
  rw [← htokens] at hmem
  obtain ⟨s, _, hs⟩ := List.mem_map.mp hmem
  obtain ⟨piece, hp, rfl⟩ := Sighting.token_eq_ok_iff.mp hs
  exact Token.placed_iff.mpr (by simpa using hp)

theorem walk_errors_built {r : Registry} {w : Wrapped} {typeChecking : Bool} {root : Node}
    {found : WalkResult} (h : walk r w typeChecking root = .ok found) : Reported w found.errors := by
  obtain ⟨fs, _, _, herrors⟩ := walk_eq_ok_iff.mp h
  rw [herrors]
  exact errorsOf_reported w _

end HoverTips.Tree
