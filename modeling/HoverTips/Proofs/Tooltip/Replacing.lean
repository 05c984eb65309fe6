import HoverTips.Proofs.Tooltip.WholeWords
import HoverTips.Settings.Vocabulary

/-! # Phrases that are added again

A registry is filled by additions, some of which are refused. A refused addition hands
back the registry as it was, so it might as well not have been asked for. Of the others
the last one for each phrase counts: its trigger is what the phrase stands for, and these
triggers stand in the order in which they were added, behind those of the registry that
were left alone. -/

namespace HoverTips

namespace TriggerRegistry

/-- The triggers that are added by some calls, one after the other. -/
def accepted (engine : Text.Engine) (r : TriggerRegistry) :
    List GlobalTrigger → List GlobalTrigger
  | [] => []
  | t :: ts =>
    match r.add engine t with
    | (.ok _, s) => t :: s.accepted engine ts
    | (.error _, s) => s.accepted engine ts

def phrases (ts : List GlobalTrigger) : List String := ts.map (·.phrase)

/-- The triggers of a list whose phrase does not come again behind them. -/
def latest : List GlobalTrigger → List GlobalTrigger
  | [] => []
  | t :: ts => if (phrases ts).contains t.phrase then latest ts else t :: latest ts

/-- No phrase has two triggers. -/
def Distinct (r : TriggerRegistry) : Prop := (phrases r.triggers).Nodup

instance (r : TriggerRegistry) : Decidable r.Distinct :=
  inferInstanceAs (Decidable (phrases r.triggers).Nodup)

variable {engine : Text.Engine} {r s : TriggerRegistry} {t : GlobalTrigger}
  {ts : List GlobalTrigger}

/-! ## One addition -/

theorem accepted_cons_ok (h : r.add engine t = (.ok (), s)) :
    r.accepted engine (t :: ts) = t :: s.accepted engine ts := by
  rw [accepted, h]

theorem accepted_cons_error {refusal : Refusal} (h : r.add engine t = (.error refusal, s)) :
    r.accepted engine (t :: ts) = r.accepted engine ts := by
  obtain ⟨-, -, hs⟩ := add_error_iff.mp h
  rw [accepted, h, hs]

theorem get?_of_add (h : r.add engine t = (.ok (), s)) (phrase : String) :
    s.get? phrase = if t.phrase = phrase then some t else r.get? phrase := by
  obtain ⟨-, rfl⟩ := add_ok_iff.mp h
  rw [get?, get?, List.find?_append, List.find?_filter]
  split
  · rename_i he
    have hnone : r.triggers.find? (fun u =>
        decide ((u.phrase != t.phrase) = true ∧ (u.phrase == phrase) = true)) = none := by
      rw [List.find?_eq_none]
      intro u _
      simp [he]
    rw [hnone, Option.none_or, List.find?_cons_of_pos (by simpa using he)]
  · rename_i hne
    -- a trigger of another phrase is not among those that were taken out
    have hkept (u : GlobalTrigger) :
        decide ((u.phrase != t.phrase) = true ∧ (u.phrase == phrase) = true) =
          (u.phrase == phrase) := by
      by_cases hu : u.phrase = phrase
      · simp [hu, Ne.symm hne]
      · simp [hu]
    simp only [hkept]
    rw [List.find?_cons_of_neg (by simpa using hne), List.find?_nil, Option.or_none]

theorem Distinct.add (hr : r.Distinct) (h : r.add engine t = (.ok (), s)) : s.Distinct := by
  obtain ⟨-, rfl⟩ := add_ok_iff.mp h
  have hkept : (phrases (r.triggers.filter (·.phrase != t.phrase))).Nodup :=
    hr.sublist (List.filter_sublist.map _)
  rw [Distinct, phrases, List.map_append]
  refine List.nodup_append.mpr ⟨hkept, by simp, ?_⟩
  intro phrase hphrase other hother he
  obtain rfl : other = t.phrase := by simpa using hother
  obtain ⟨u, hu, rfl⟩ := List.mem_map.mp hphrase
  have hne := (List.mem_filter.mp hu).2
  simp [he] at hne

/-! ## Additions one after the other -/

section calls

variable (engine : Text.Engine) (r : TriggerRegistry) (calls : List GlobalTrigger)

theorem Distinct.foldl {r : TriggerRegistry} (hr : r.Distinct) :
    (calls.foldl (offer engine) r).Distinct := by
  induction calls generalizing r with
  | nil => exact hr
  | cons t ts ih =>
    rw [List.foldl_cons]
    obtain ⟨s, h⟩ | ⟨refusal, h⟩ := add_cases engine r t
    · rw [offer_of_ok h]
      exact ih (hr.add h)
    · rw [offer_of_error h]
      exact ih hr

/-- A phrase stands for the last trigger that was added for it. -/
theorem get?_foldl (phrase : String) :
    (calls.foldl (offer engine) r).get? phrase =
      ((r.accepted engine calls).reverse.find? (·.phrase == phrase)).or (r.get? phrase) := by
  induction calls generalizing r with
  | nil => rfl
  | cons t ts ih =>
    rw [List.foldl_cons]
    obtain ⟨s, h⟩ | ⟨refusal, h⟩ := add_cases engine r t
    · rw [offer_of_ok h, accepted_cons_ok h, ih, get?_of_add h, List.reverse_cons,
        List.find?_append, Option.or_assoc]
      congr 1
      by_cases he : t.phrase = phrase
      · simp [he]
      · simp [he]
    · rw [offer_of_error h, accepted_cons_error h, ih]

/-- What was in the registry stays in front as far as no addition replaces it. Behind it
stand the last triggers for each phrase. -/
theorem triggers_foldl :
    (calls.foldl (offer engine) r).triggers =
      r.triggers.filter (fun u => !(phrases (r.accepted engine calls)).contains u.phrase) ++
        latest (r.accepted engine calls) := by
  induction calls generalizing r with
  | nil =>
    have hall : r.triggers.filter (fun u => !(phrases []).contains u.phrase) = r.triggers :=
      List.filter_eq_self.mpr fun _ _ => rfl
    rw [accepted, hall, latest, List.append_nil, List.foldl_nil]
  | cons t ts ih =>
    rw [List.foldl_cons]
    obtain ⟨s, h⟩ | ⟨refusal, h⟩ := add_cases engine r t
    · obtain ⟨-, hs⟩ := add_ok_iff.mp h
      have htriggers : s.triggers = r.triggers.filter (·.phrase != t.phrase) ++ [t] := by rw [hs]
      have hkept : (r.triggers.filter (·.phrase != t.phrase)).filter
            (fun u => !(phrases (s.accepted engine ts)).contains u.phrase) =
          r.triggers.filter fun u => !(phrases (t :: s.accepted engine ts)).contains u.phrase := by
        rw [List.filter_filter]
        refine List.filter_congr fun u _ => ?_
        rw [phrases, phrases, List.map_cons, List.contains_cons, Bool.not_or, Bool.and_comm]
        rfl
      rw [offer_of_ok h, accepted_cons_ok h, ih, htriggers, List.filter_append, hkept, latest,
        List.append_assoc]
      congr 1
      -- the new trigger stays in front unless its phrase comes again
      cases hagain : (phrases (s.accepted engine ts)).contains t.phrase with
      | true => rw [List.filter_cons_of_neg (by rw [hagain]; simp)]; rfl
      | false => rw [List.filter_cons_of_pos (by rw [hagain]; simp)]; rfl
    · rw [offer_of_error h, accepted_cons_error h, ih]

end calls

/-- After some additions to a registry, its phrases differ. A phrase stands for the last
trigger that was added for it, or for what it stood for before. The triggers come in the
order of the last addition for each phrase, behind those that no addition replaced. An
addition that is refused hands back the registry as it is, and so does not show in the
end. -/
theorem last_addition_stands (engine : Text.Engine) (hr : r.Distinct)
    (calls : List GlobalTrigger) :
    let final := calls.foldl (offer engine) r
    let added := r.accepted engine calls
    final.Distinct ∧
    (∀ phrase, final.get? phrase =
      (added.reverse.find? (·.phrase == phrase)).or (r.get? phrase)) ∧
    final.triggers =
      r.triggers.filter (fun u => !(phrases added).contains u.phrase) ++ latest added ∧
    ∀ front t back refusal after, calls = front ++ t :: back →
      (front.foldl (offer engine) r).add engine t = (.error refusal, after) →
        after = front.foldl (offer engine) r ∧
          (front ++ back).foldl (offer engine) r = final := by
  intro final added
  refine ⟨hr.foldl engine calls, get?_foldl engine r calls, triggers_foldl engine r calls, ?_⟩
  intro front t back refusal after hcalls hrefused
  have hsame : (front ++ [t]).foldl (offer engine) r = front.foldl (offer engine) r := by
    rw [List.foldl_append, List.foldl_cons, List.foldl_nil, offer_of_error hrefused]
  refine ⟨(add_error_iff.mp hrefused).2.2, ?_⟩
  calc (front ++ back).foldl (offer engine) r
      = back.foldl (offer engine) ((front ++ [t]).foldl (offer engine) r) := by
        rw [hsame, List.foldl_append]
    _ = final := by
        rw [← List.foldl_append, List.append_assoc, List.singleton_append, ← hcalls]

/-- Additions to the standard registry: a phrase, a blank one, a long one, one that the
registry has, and the first phrase once more. -/
def sampleAdditions : List GlobalTrigger :=
  [⟨"SLA", [], "Service level", "", .light⟩, ⟨" \t", [], "Blank", "", .light⟩,
    ⟨"Service level agreement", [], "Agreement", "", .light⟩,
    ⟨"DD", [], "Due diligence", "", .dark⟩, ⟨"SLA", ["SLAs"], "Agreement", "", .dark⟩]

/-- The engine takes no long expressions here, so two of the additions are refused. -/
theorem last_addition_stands_standard :
    let engine : Text.Engine := fun expression => decide (expression.length ≤ 16)
    (standard engine).Distinct ∧
      (sampleAdditions.foldl (offer engine) (standard engine)).triggers =
        [⟨"DD", [], "Due diligence", "", .dark⟩, ⟨"SLA", ["SLAs"], "Agreement", "", .dark⟩] ∧
      (sampleAdditions.foldl (offer engine) (standard engine)).get? "SLA" =
        some ⟨"SLA", ["SLAs"], "Agreement", "", .dark⟩ := by
  intro engine
  have hdistinct : (standard engine).Distinct := by decide +kernel
  have hstandard : (standard engine).triggers = [.deepDive] := by decide +kernel
  obtain ⟨-, hget, htriggers, -⟩ := last_addition_stands engine hdistinct sampleAdditions
  have hadded : (standard engine).accepted engine sampleAdditions =
      [⟨"SLA", [], "Service level", "", .light⟩, ⟨"DD", [], "Due diligence", "", .dark⟩,
        ⟨"SLA", ["SLAs"], "Agreement", "", .dark⟩] := by decide +kernel
  rw [hadded] at hget htriggers
  refine ⟨hdistinct, ?_, ?_⟩
  · rw [htriggers, hstandard]
    decide
  · rw [hget]
    decide

end TriggerRegistry

/-- The phrases of a project never stand twice among its triggers. -/
theorem Config.triggers_distinct (engine : Text.Engine) (c : Config) :
    (c.triggers engine).Distinct := by
  have hcalls : c.triggers engine =
      (c.phrases.map PhraseSetting.trigger).foldl (TriggerRegistry.offer engine)
        (.standard engine) := by
    rw [Config.triggers, List.foldl_map]
  have hempty : TriggerRegistry.empty.Distinct := List.nodup_nil
  rw [hcalls]
  exact (hempty.foldl engine [.deepDive]).foldl engine _

end HoverTips
