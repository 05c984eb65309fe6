import HoverTips.Proofs.Text.Fields
import HoverTips.Tooltip.Trigger
import Mathlib.Data.List.Basic

/-! # The words in an id

The id of a trigger is made of the words of its phrase, the runs of letters and numbers
in lower case, with single hyphens between them (`id_joins_words`). The loop that writes
it may put a hyphen in front and one behind, and these are trimmed; no word has a hyphen,
so the id shows its words. -/

namespace HoverTips

namespace Text

/-! ## Lower case -/

theorem lowercase_ne_nil (c : Char) : lowercase c ≠ [] := by
  unfold lowercase
  split
  · simp
  · split <;> simp

/-- No code point moves to one below the letters. -/
theorem lt_add_lowercaseShift {n : Nat} (hn : 0x80 ≤ n) : 45 < (n : Int) + lowercaseShift n := by
  have htable : ∀ run ∈ lowercaseShifts, 45 < (run.1 : Int) + run.2.2.2 := by decide +kernel
  unfold lowercaseShift
  split
  · rename_i first last stride shift hfind
    have hlow : 45 < (first : Int) + shift := htable _ (List.mem_of_find?_eq_some hfind)
    have hrange := List.find?_some hfind
    simp only [Bool.and_eq_true, decide_eq_true_iff] at hrange
    omega
  · omega

theorem toNat_ofNat_of_ne {n : Nat} {c : Char} (h : Char.ofNat n = c) (hc : c ≠ '\x00') :
    c.toNat = n := by
  by_cases hvalid : n.isValidChar
  · rw [← h, Char.ofNat, dif_pos hvalid]
    rfl
  · rw [← h, Char.ofNat, dif_neg hvalid] at hc
    exact absurd rfl hc

theorem hyphen_notMem_lowercase {c : Char} (hc : isAlphanumeric c = true) :
    '-' ∉ lowercase c := by
  have hne : c ≠ '-' := by
    rintro rfl
    exact absurd hc (by decide)
  unfold lowercase
  split
  · rw [List.mem_singleton]
    intro h
    have hnat := toNat_toLower c
    rw [← h] at hnat
    have : ('-' : Char).toNat = 45 := rfl
    refine hne (Char.toNat_inj.mp ?_)
    split at hnat <;> omega
  split
  · decide
  · rename_i hascii _
    rw [List.mem_singleton]
    intro h
    have hnat : 45 = _ := toNat_ofNat_of_ne h.symm (by decide)
    have hshift := lt_add_lowercaseShift (Nat.le_of_not_lt hascii)
    omega

end Text

namespace GlobalTrigger

/-- What the characters of a phrase add to a slug. The flag says whether a hyphen is in front
of them, which takes in the hyphens that follow it. -/
def added : Bool → List Char → List Char
  | _, [] => []
  | hyphened, c :: cs =>
    if Text.isAlphanumeric c then Text.lowercase c ++ added false cs
    else if hyphened then added true cs
    else '-' :: added true cs

theorem getLast?_append_lowercase {c : Char} (hc : Text.isAlphanumeric c = true)
    (slug : List Char) : ((slug ++ Text.lowercase c).getLast? == some '-') = false := by
  rw [List.getLast?_append_of_ne_nil _ (Text.lowercase_ne_nil c), beq_eq_false_iff_ne]
  intro h
  exact Text.hyphen_notMem_lowercase hc (List.mem_of_getLast? h)

theorem foldl_slugStep (slug cs : List Char) :
    cs.foldl slugStep slug = slug ++ added (slug.getLast? == some '-') cs := by
  induction cs generalizing slug with
  | nil => simp [added]
  | cons c cs ih =>
    rw [List.foldl_cons, ih, slugStep, added]
    cases hc : Text.isAlphanumeric c with
    | true => simp only [if_true, getLast?_append_lowercase hc, List.append_assoc]
    | false => cases h : slug.getLast? == some '-' <;> simp [h]

/-! ## Words of a slug -/

/-- The runs of letters and numbers, each in lower case, character by character. -/
def lowered (cs : List Char) : List (List Char) :=
  (Text.runs Text.isAlphanumeric cs).map (·.flatMap Text.lowercase)

theorem of_mem_lowered {cs word : List Char} (h : word ∈ lowered cs) : word ≠ [] ∧ '-' ∉ word := by
  obtain ⟨run, hrun, rfl⟩ := List.mem_map.mp h
  obtain ⟨hne, hall⟩ := Text.of_mem_runs hrun
  constructor
  · obtain ⟨c, hc⟩ := List.exists_mem_of_ne_nil run hne
    exact fun hnil => Text.lowercase_ne_nil c (List.flatMap_eq_nil_iff.mp hnil c hc)
  · intro hmem
    obtain ⟨c, hc, hhyphen⟩ := List.mem_flatMap.mp hmem
    exact Text.hyphen_notMem_lowercase (hall c hc) hhyphen

section lowered

variable {c d : Char} {cs : List Char}

theorem lowered_cons_of_neg (hc : Text.isAlphanumeric c = false) : lowered (c :: cs) = lowered cs := by
  rw [lowered, Text.runs_cons_of_neg hc, lowered]

theorem lowered_cons_cons (hc : Text.isAlphanumeric c = true) (hd : Text.isAlphanumeric d = true)
    (cs : List Char) : ∃ word rest, lowered (d :: cs) = word :: rest ∧
      lowered (c :: d :: cs) = (Text.lowercase c ++ word) :: rest := by
  obtain ⟨run, rest, hnext, hboth⟩ := Text.runs_cons_cons hc hd cs
  refine ⟨run.flatMap Text.lowercase, rest.map (·.flatMap Text.lowercase), ?_, ?_⟩
  · rw [lowered, hnext, List.map_cons]
  · rw [lowered, hboth, List.map_cons, List.flatMap_cons]

theorem lowered_cons_of_head (hc : Text.isAlphanumeric c = true)
    (h : ∀ d ∈ cs.head?, Text.isAlphanumeric d = false) :
    lowered (c :: cs) = Text.lowercase c :: lowered cs := by
  rw [lowered, Text.runs_cons_of_head hc h, List.map_cons, List.flatMap_singleton, lowered]

end lowered

theorem added_false_cons (d : Char) (cs : List Char) :
    added false (d :: cs) =
      if Text.isAlphanumeric d then added true (d :: cs) else '-' :: added true (d :: cs) := by
  rw [added, added]
  split <;> rfl

/-- Behind a hyphen a phrase adds its words with single hyphens between them, and at most
hyphens behind the last one. -/
theorem added_true (cs : List Char) :
    ∃ trail, (∀ c ∈ trail, c = '-') ∧
      added true cs = ['-'].intercalate (lowered cs) ++ trail := by
  induction cs with
  | nil => exact ⟨[], by simp, rfl⟩
  | cons c cs ih =>
    obtain ⟨trail, htrail, hcs⟩ := ih
    cases hc : Text.isAlphanumeric c with
    | false =>
      refine ⟨trail, htrail, ?_⟩
      rw [lowered_cons_of_neg hc, ← hcs, added, hc]
      rfl
    | true =>
      have hfirst : added true (c :: cs) = Text.lowercase c ++ added false cs := by
        rw [added, hc, if_pos rfl]
      cases cs with
      | nil =>
        refine ⟨[], by simp, ?_⟩
        rw [hfirst, lowered_cons_of_head hc (by simp)]
        simp [added, lowered, Text.runs, Text.runsAt, Text.splitRuns]
      | cons d cs =>
        rw [hfirst, added_false_cons, hcs]
        cases hd : Text.isAlphanumeric d with
        | true =>
          -- the word goes on
          obtain ⟨word, rest, hnext, hboth⟩ := lowered_cons_cons hc hd cs
          refine ⟨trail, htrail, ?_⟩
          rw [hnext, hboth, if_pos rfl]
          cases rest <;> simp
        | false =>
          -- the word ends, and there is a hyphen behind it whether or not another word comes
          rw [lowered_cons_of_head hc (by simpa using hd)]
          cases hrest : lowered (d :: cs) with
          | nil => exact ⟨'-' :: trail, by simpa using htrail, by simp⟩
          | cons word rest => exact ⟨trail, htrail, by simp⟩

/-! ## Joined words -/

section joined

variable {words others : List (List Char)}

/-- Words with hyphens between them fall apart at their hyphens again. -/
theorem splitOn_append_hyphen (hwords : ∀ word ∈ words, word ≠ [] ∧ '-' ∉ word)
    {front back : List Char} (h : ['-'].intercalate words = front ++ '-' :: back) :
    List.splitOn '-' front ++ List.splitOn '-' back = words := by
  have hne : words ≠ [] := by
    rintro rfl
    simp at h
  rw [← List.splitOn_append_cons_self, ← h,
    List.splitOn_intercalate _ (fun word hword => (hwords word hword).2) hne]

theorem nil_notMem (hwords : ∀ word ∈ words, word ≠ [] ∧ '-' ∉ word) : [] ∉ words :=
  fun h => (hwords [] h).1 rfl

/-- Joined words begin and end without a hyphen, and no two hyphens follow each other:
else there would be an empty word. -/
theorem joined_hyphens (hwords : ∀ word ∈ words, word ≠ [] ∧ '-' ∉ word) :
    let joined := ['-'].intercalate words
    joined.head? ≠ some '-' ∧ joined.getLast? ≠ some '-' ∧ ¬['-', '-'] <:+: joined := by
  refine ⟨fun h => ?_, fun h => ?_, fun ⟨front, back, h⟩ => ?_⟩
  · obtain ⟨back, hback⟩ := List.head?_eq_some_iff.mp h
    rw [← List.nil_append ('-' :: back)] at hback
    have hsplit := splitOn_append_hyphen hwords hback
    exact nil_notMem hwords (hsplit ▸ by simp)
  · obtain ⟨front, hfront⟩ := List.getLast?_eq_some_iff.mp h
    have hsplit := splitOn_append_hyphen hwords hfront
    exact nil_notMem hwords (hsplit ▸ by simp)
  · rw [List.append_assoc] at h
    have hsplit := splitOn_append_hyphen hwords h.symm
    exact nil_notMem hwords (hsplit ▸ by simp [List.splitOn_cons_eq_if_modifyHead])

theorem words_of_joined (hwords : ∀ word ∈ words, word ≠ [] ∧ '-' ∉ word) :
    (List.splitOn '-' (['-'].intercalate words)).filter (!·.isEmpty) = words := by
  cases words with
  | nil => rfl
  | cons word rest =>
    rw [List.splitOn_intercalate _ (fun word hword => (hwords word hword).2) (by simp)]
    exact List.filter_eq_self.mpr fun word hword => by simp [(hwords word hword).1]

theorem joined_injective (hwords : ∀ word ∈ words, word ≠ [] ∧ '-' ∉ word)
    (hothers : ∀ word ∈ others, word ≠ [] ∧ '-' ∉ word)
    (h : ['-'].intercalate words = ['-'].intercalate others) : words = others := by
  rw [← words_of_joined hwords, h, words_of_joined hothers]

end joined

/-! ## Ids -/

theorem toList_slug (phrase : String) :
    (slug phrase).toList = ['-'].intercalate (lowered phrase.toList) := by
  obtain ⟨trail, htrail, htrue⟩ := added_true phrase.toList
  -- in front of a hyphen there is at most one more than behind one
  obtain ⟨lead, hlead, hfalse⟩ : ∃ lead, (∀ c ∈ lead, c = '-') ∧
      added false phrase.toList = lead ++ added true phrase.toList := by
    cases phrase.toList with
    | nil => exact ⟨[], by simp, rfl⟩
    | cons c cs =>
      rw [added_false_cons]
      split
      · exact ⟨[], by simp, rfl⟩
      · exact ⟨['-'], by simp, rfl⟩
  obtain ⟨hhead, hlast, -⟩ :=
    joined_hyphens fun word (hword : word ∈ lowered phrase.toList) => of_mem_lowered hword
  have hends : ∀ {c : Char}, c ≠ '-' → (c == '-') = false := beq_false_of_ne
  rw [slug, foldl_slugStep, List.nil_append, List.getLast?_nil, String.toList_ofList]
  change Text.trimEndOf _ (Text.trimStartOf _ (added false phrase.toList)) = _
  rw [hfalse, htrue, ← List.append_assoc]
  refine Text.trimEndOf_trimStartOf (fun c hc => beq_iff_eq.mpr (hlead c hc))
    (fun c hc => beq_iff_eq.mpr (htrail c hc)) (fun c hc => hends ?_) (fun c hc => hends ?_)
  · rintro rfl
    exact hhead hc
  · rintro rfl
    exact hlast hc

/-- The words of a phrase: its maximal runs of letters and numbers (`Text.mem_runsAt_iff`),
each in lower case. -/
def slugWords (phrase : String) : List String := (lowered phrase.toList).map String.ofList

theorem toList_slugWords (phrase : String) :
    (slugWords phrase).map String.toList = lowered phrase.toList := by
  simp [slugWords, Function.comp_def]

theorem slug_eq (phrase : String) : slug phrase = "-".intercalate (slugWords phrase) := by
  rw [← String.toList_inj, toList_slug, String.toList_intercalate, toList_slugWords]
  rfl

theorem slug_eq_iff {phrase other : String} :
    slug phrase = slug other ↔ slugWords phrase = slugWords other := by
  refine ⟨fun h => ?_, fun h => by rw [slug_eq, slug_eq, h]⟩
  rw [← String.toList_inj, toList_slug, toList_slug] at h
  have hwords := joined_injective (fun _ => of_mem_lowered) (fun _ => of_mem_lowered) h
  rw [← toList_slugWords, ← toList_slugWords] at hwords
  exact List.map_injective_iff.mpr (fun _ _ => String.toList_inj.mp) hwords

/-- The id of a trigger is made of the words of its phrase, with single hyphens between
them: it has none at the ends and never two in a row. So two triggers have one id exactly
when their words join to the same text, and that is when they have the same words. -/
theorem id_joins_words (t u : GlobalTrigger) :
    t.id = "global-" ++ "-".intercalate (slugWords t.phrase) ∧
    t.id = "global-" ++ slug t.phrase ∧
    (slug t.phrase).toList.head? ≠ some '-' ∧ (slug t.phrase).toList.getLast? ≠ some '-' ∧
    ¬['-', '-'] <:+: (slug t.phrase).toList ∧
    (t.id = u.id ↔
      "-".intercalate (slugWords t.phrase) = "-".intercalate (slugWords u.phrase)) ∧
    (t.id = u.id ↔ slugWords t.phrase = slugWords u.phrase) := by
  have hids : t.id = u.id ↔ slug t.phrase = slug u.phrase := by
    rw [id, id, String.append_right_inj]
  have hhyphens := joined_hyphens fun word (hword : word ∈ lowered t.phrase.toList) =>
    of_mem_lowered hword
  rw [← toList_slug] at hhyphens
  obtain ⟨hhead, hlast, htwo⟩ := hhyphens
  refine ⟨by rw [id, slug_eq], rfl, hhead, hlast, htwo, ?_, hids.trans slug_eq_iff⟩
  rw [hids, slug_eq, slug_eq]

example : slugWords "(Happy--Path!)" = ["happy", "path"] := by decide +kernel

end GlobalTrigger

end HoverTips
