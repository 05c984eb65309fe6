import HoverTips.Proofs.Tooltip.Additions

/-! # The phrases of a page

Prose on a fresh page gets the tooltips of the phrases that stand in it, in the
order of the registry. The slug in an id says less than the phrase, so phrases can
share an id. Then only the first of them gets its tooltip, and the others are left
out without a refusal. -/

namespace HoverTips

namespace GlobalTrigger

variable {t u : GlobalTrigger}

/-- The tooltip of a trigger that is not refused. -/
def tooltip (t : GlobalTrigger) : TooltipRecord where
  id := t.id
  trigger := t.phrase :: t.aliases
  content := .plain t.title t.description
  appearance := { Appearance.standard with theme := t.theme }
  portal := .fixed
  kind := .global

/-- The tooltip says everything about its trigger. -/
theorem tooltip_injective : Function.Injective tooltip := by
  intro t u h
  obtain ⟨phrase, aliases, title, description, theme⟩ := t
  simp only [tooltip, TooltipContent.plain, TooltipRecord.mk.injEq, List.cons.injEq,
    TooltipContent.mk.injEq, Appearance.mk.injEq] at h
  obtain ⟨-, ⟨rfl, rfl⟩, ⟨rfl, rfl, -⟩, ⟨rfl, -⟩, -⟩ := h
  rfl

/-- What a trigger needs to get its tooltip. -/
structure Usable (t : GlobalTrigger) : Prop where
  pattern : t.pattern ≠ []
  aliases : "" ∉ t.aliases

theorem Usable.phrase (h : t.Usable) : t.phrase ≠ "" := by
  intro he
  apply h.pattern
  rw [GlobalTrigger.pattern, he]
  rfl

theorem id_not_blank (t : GlobalTrigger) : Text.isBlank t.id.toList = false := by
  rw [id]
  exact not_blank_append (by decide) _

theorem Usable.record (h : t.Usable) : t.request.record = .ok t.tooltip := by
  have hempty : (t.phrase :: t.aliases).any (· == "") = false := by
    rw [List.any_eq_false]
    intro s hs he
    rw [beq_iff_eq] at he
    subst he
    rcases List.mem_cons.mp hs with hs | hs
    · exact h.phrase hs.symm
    · exact h.aliases hs
  simp [request, TooltipRequest.record, TooltipRequest.full, TooltipRequest.withTheme,
    Option.filter, id_not_blank, hempty, tooltip]

theorem triggerRecords_of_usable {ts : List GlobalTrigger} (h : ∀ t ∈ ts, t.Usable) :
    triggerRecords ts = ts.map tooltip := by
  induction ts with
  | nil => rfl
  | cons t ts ih =>
    rw [List.forall_mem_cons] at h
    rw [triggerRecords_cons_ok h.1.record, ih h.2, List.map_cons]

end GlobalTrigger

/-! ## Additions to the registry -/

namespace TriggerRegistry

variable {engine : Text.Engine} {r s : TriggerRegistry} {t u : GlobalTrigger}

/-- A trigger is taken if something is left of its phrase and the engine takes the expression. -/
theorem add_taken (hpattern : t.pattern ≠ []) (hengine : engine t.expression = true) :
    r.add engine t = (.ok (), ⟨r.triggers.filter (·.phrase != t.phrase) ++ [t]⟩) := by
  simp [add, hpattern, hengine]

/-- Otherwise it is refused with its phrase, and the registry is handed back as it was. -/
theorem add_refused (h : t.pattern = [] ∨ engine t.expression = false) :
    r.add engine t = (.error (.invalidPhrase t.phrase), r) := by
  obtain hblank | hengine := h
  · simp [add, hblank]
  · simp [add, hengine]

theorem taken_or_refused (engine : Text.Engine) (t : GlobalTrigger) :
    (t.pattern ≠ [] ∧ engine t.expression = true) ∨
      (t.pattern = [] ∨ engine t.expression = false) := by
  by_cases hpattern : t.pattern = []
  · exact .inr (.inl hpattern)
  · cases hengine : engine t.expression with
    | false => exact .inr (.inr rfl)
    | true => exact .inl ⟨hpattern, rfl⟩

theorem add_ok_iff :
    r.add engine t = (.ok (), s) ↔
      (t.pattern ≠ [] ∧ engine t.expression = true) ∧
        s = ⟨r.triggers.filter (·.phrase != t.phrase) ++ [t]⟩ := by
  constructor
  · intro h
    obtain htaken | hrefused := taken_or_refused engine t
    · rw [add_taken htaken.1 htaken.2] at h
      cases h
      exact ⟨htaken, rfl⟩
    · rw [add_refused hrefused] at h
      cases h
  · rintro ⟨⟨hpattern, hengine⟩, rfl⟩
    exact add_taken hpattern hengine

theorem add_error_iff {refusal : Refusal} :
    r.add engine t = (.error refusal, s) ↔
      (t.pattern = [] ∨ engine t.expression = false) ∧
        refusal = .invalidPhrase t.phrase ∧ s = r := by
  constructor
  · intro h
    obtain htaken | hrefused := taken_or_refused engine t
    · rw [add_taken htaken.1 htaken.2] at h
      cases h
    · rw [add_refused hrefused] at h
      cases h
      exact ⟨hrefused, rfl, rfl⟩
  · rintro ⟨hrefused, rfl, rfl⟩
    exact add_refused hrefused

theorem add_cases (engine : Text.Engine) (r : TriggerRegistry) (t : GlobalTrigger) :
    (∃ s, r.add engine t = (.ok (), s)) ∨ ∃ refusal, r.add engine t = (.error refusal, r) := by
  obtain htaken | hrefused := taken_or_refused engine t
  · exact .inl ⟨_, add_taken htaken.1 htaken.2⟩
  · exact .inr ⟨_, add_refused hrefused⟩

theorem offer_of_ok (h : r.add engine t = (.ok (), s)) : r.offer engine t = s := by
  rw [offer, h]

theorem offer_of_error {refusal : Refusal} (h : r.add engine t = (.error refusal, s)) :
    r.offer engine t = r := by
  rw [offer, h]
  exact (add_error_iff.mp h).2.2

/-- A blank phrase is refused, so usable triggers are all there are when no alias is empty. -/
theorem usable_offer (hr : ∀ u ∈ r.triggers, u.Usable) (halias : "" ∉ t.aliases) :
    ∀ u ∈ (r.offer engine t).triggers, u.Usable := by
  obtain ⟨s, h⟩ | ⟨refusal, h⟩ := add_cases engine r t
  · rw [offer_of_ok h]
    obtain ⟨⟨hpattern, -⟩, rfl⟩ := add_ok_iff.mp h
    intro u hu
    rcases List.mem_append.mp hu with hu | hu
    · exact hr u (List.mem_filter.mp hu).1
    · obtain rfl := List.mem_singleton.mp hu
      exact ⟨hpattern, halias⟩
  · rwa [offer_of_error h]

theorem usable_foldl {ts : List GlobalTrigger} (hr : ∀ u ∈ r.triggers, u.Usable)
    (halias : ∀ u ∈ ts, "" ∉ u.aliases) : ∀ u ∈ (ts.foldl (offer engine) r).triggers, u.Usable := by
  induction ts generalizing r with
  | nil => exact hr
  | cons t ts ih =>
    rw [List.forall_mem_cons] at halias
    exact ih (usable_offer hr halias.1) halias.2

end TriggerRegistry

/-! ## Prose on a fresh page -/

namespace PageIds

theorem acceptTriggers_rejected {p q : PageIds} {ts : List GlobalTrigger} {a : Assembled}
    (husable : ∀ t ∈ ts, t.Usable) (h : p.acceptTriggers ts = (.ok a, q)) : a.rejected = [] := by
  induction ts generalizing p a with
  | nil =>
    cases h
    rfl
  | cons t ts ih =>
    rw [List.forall_mem_cons] at husable
    obtain ⟨_, h⟩ | ⟨_, refusal, b, hd, _, _⟩ | ⟨_, x, b, _, hb, rfl⟩ := acceptTriggers_cons_ok h
    · exact ih husable.2 h
    · rw [husable.1.record] at hd
      cases hd
    · have hrest : b.rejected = [] := ih husable.2 hb
      exact hrest

theorem acceptTriggers_empty (page : String) {ts : List GlobalTrigger}
    (husable : ∀ t ∈ ts, t.Usable) :
    ((empty page).acceptTriggers ts).1 = .ok ⟨firstById (ts.map (·.tooltip)), []⟩ := by
  obtain ⟨⟨records, rejected⟩, after, h, -⟩ := acceptTriggers_spec (empty page) ts
  have hrecords := (acceptTriggers_added h).2
  have hrejected := acceptTriggers_rejected husable h
  have hall : (firstById (ts.map (·.tooltip))).filter (fun x => !(empty page).contains x.id) =
      firstById (ts.map (·.tooltip)) := List.filter_eq_self.mpr fun _ _ => rfl
  dsimp only at hrecords hrejected
  rw [GlobalTrigger.triggerRecords_of_usable husable, hall] at hrecords
  rw [h, hrecords, hrejected]

/-- Triggers are added to an empty registry, and some of them may be refused. On a fresh
page prose then gets a tooltip for every id of a phrase that stands in it, in the order
of the registry, and nothing is refused. A phrase gets its own tooltip exactly when no
phrase before it that stands in the prose has its id. So every phrase gets one exactly
when their ids differ. -/
theorem assembleProse_fresh (engine : Text.Engine) (page text : String) {ts : List GlobalTrigger}
    (halias : ∀ t ∈ ts, "" ∉ t.aliases) :
    let triggers := ts.foldl (TriggerRegistry.offer engine) .empty
    ∃ records, ((empty page).assembleProse triggers text).1 = .ok ⟨records, []⟩ ∧
      records.Sublist ((triggers.occurring text).map (·.tooltip)) ∧
      (records.map (·.id)).Nodup ∧
      (∀ t : GlobalTrigger, t.tooltip ∈ records ↔
        (triggers.occurring text).find? (·.id == t.id) = some t) ∧
      (records = (triggers.occurring text).map (·.tooltip) ↔
        ((triggers.occurring text).map (·.id)).Nodup) := by
  intro triggers
  have husable : ∀ t ∈ triggers.occurring text, t.Usable := by
    intro t ht
    exact TriggerRegistry.usable_foldl (fun _ h => by cases h) halias t (List.mem_filter.mp ht).1
  refine ⟨_, acceptTriggers_empty page husable, firstById_sublist _, firstById_nodup _, ?_, ?_⟩
  · intro t
    rw [mem_firstById_iff, List.find?_map, Option.map_eq_some_iff]
    refine ⟨?_, fun h => ⟨t, h, rfl⟩⟩
    rintro ⟨u, hu, he⟩
    rwa [GlobalTrigger.tooltip_injective he] at hu
  · rw [firstById_eq_self_iff, List.map_map]
    rfl

/-- A phrase for each of two languages, and one more. -/
def languagePhrases : List GlobalTrigger :=
  [⟨"C++", ["CPP"], "C plus plus", "", .light⟩, ⟨"C#", [], "C sharp", "", .dark⟩, .deepDive]

/-- With one of the two languages in the prose every phrase gets its tooltip. -/
theorem assembleProse_fresh_language :
    (∀ t ∈ languagePhrases, "" ∉ t.aliases) ∧
      ((empty "a.md").assembleProse
          (languagePhrases.foldl (TriggerRegistry.offer fun _ => true) .empty) "DD: C#.").1 =
        .ok ⟨[GlobalTrigger.tooltip ⟨"C#", [], "C sharp", "", .dark⟩,
          GlobalTrigger.deepDive.tooltip], []⟩ := by
  have halias : ∀ t ∈ languagePhrases, "" ∉ t.aliases := by decide +kernel
  have hoccurring :
      (languagePhrases.foldl (TriggerRegistry.offer fun _ => true) .empty).occurring "DD: C#." =
        [⟨"C#", [], "C sharp", "", .dark⟩, .deepDive] := by decide +kernel
  obtain ⟨records, hrecords, -, -, -, hall⟩ :=
    assembleProse_fresh (fun _ => true) "a.md" "DD: C#." halias
  rw [hoccurring] at hall
  refine ⟨halias, ?_⟩
  rw [hrecords, hall.mpr (by decide +kernel)]
  rfl

/-- With both in the prose the second gets none: both ids are `global-c`. -/
theorem assembleProse_fresh_shared :
    ∃ triggers, languagePhrases.foldl (TriggerRegistry.offer fun _ => true) .empty = triggers ∧
      triggers.triggers = languagePhrases ∧
      (triggers.occurring "C++ and C# differ.").map (·.phrase) = ["C++", "C#"] ∧
      ((empty "a.md").assembleProse triggers "C++ and C# differ.").1 =
        .ok ⟨[GlobalTrigger.tooltip ⟨"C++", ["CPP"], "C plus plus", "", .light⟩], []⟩ :=
  ⟨_, rfl, by decide +kernel, by decide +kernel, by decide +kernel⟩

end PageIds

end HoverTips
