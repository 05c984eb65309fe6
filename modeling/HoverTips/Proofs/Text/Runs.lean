import HoverTips.Text.Words
import HoverTips.Proofs.Text.Boundary

/-! # Maximal runs

A maximal run is described by its neighbours: it holds characters of the class
only, and none stands right before it or right behind it. `runsAt` lists
exactly these (`mem_runsAt_iff`), and it lists them in order with a gap between
any two (`runsAt_apart`). -/

namespace HoverTips.Text

/-- Whether `run` is a maximal run of characters in `p` that starts at an offset
of the text. -/
def IsRun (p : Char → Bool) (cs : List Char) (offset : Nat) (run : List Char) : Prop :=
  ∃ before after, cs = before ++ run ++ after ∧ byteLength before = offset ∧ run ≠ [] ∧
    (∀ c ∈ run, p c = true) ∧ (∀ c ∈ before.getLast?, p c = false) ∧
    (∀ c ∈ after.head?, p c = false)

variable {p : Char → Bool}

theorem of_mem_head?_dropWhile {cs : List Char} {c : Char} (h : c ∈ (cs.dropWhile p).head?) :
    p c = false := by
  have := List.head?_dropWhile_not p cs
  rw [Option.mem_def.mp h] at this
  simpa using this

theorem eq_takeWhile_iff {cs run : List Char} :
    run = cs.takeWhile p ↔
      ∃ after, cs = run ++ after ∧ (∀ c ∈ run, p c = true) ∧ (∀ c ∈ after.head?, p c = false) := by
  constructor
  · rintro rfl
    exact ⟨cs.dropWhile p, List.takeWhile_append_dropWhile.symm,
      List.all_eq_true.mp List.all_takeWhile, fun _ => of_mem_head?_dropWhile⟩
  · rintro ⟨after, rfl, hall, hhead⟩
    rw [List.takeWhile_append_of_pos hall]
    cases after with
    | nil => simp
    | cons c cs => simp [hhead c (by simp)]

theorem splitRuns_fst (offset : Nat) (cs : List Char) :
    (splitRuns p offset cs).1 = cs.takeWhile p := by
  induction cs generalizing offset with
  | nil => rfl
  | cons c cs ih =>
    simp only [splitRuns, List.takeWhile_cons]
    split
    · simp [ih]
    · rfl

/-- The runs behind the front one are those that a character outside the class
precedes. -/
theorem mem_splitRuns_snd_iff {offset o : Nat} {cs run : List Char} :
    (o, run) ∈ (splitRuns p offset cs).2 ↔
      ∃ before c after, cs = before ++ c :: (run ++ after) ∧ p c = false ∧
        offset + byteLength before + c.utf8Size = o ∧ run ≠ [] ∧ (∀ x ∈ run, p x = true) ∧
        (∀ x ∈ after.head?, p x = false) := by
  induction cs generalizing offset with
  | nil => simp [splitRuns]
  | cons d cs ih =>
    have hfront := splitRuns_fst (p := p) (offset + d.utf8Size) cs
    -- whatever `d` is, a run that starts later is a run of what follows `d`
    have later : (o, run) ∈ (splitRuns p (offset + d.utf8Size) cs).2 ↔
        ∃ before c after, d :: cs = (d :: before) ++ c :: (run ++ after) ∧ p c = false ∧
          offset + byteLength (d :: before) + c.utf8Size = o ∧ run ≠ [] ∧
          (∀ x ∈ run, p x = true) ∧ (∀ x ∈ after.head?, p x = false) := by
      rw [ih]
      simp [Nat.add_assoc]
    by_cases hd : p d = true
    · simp only [splitRuns, hd, if_true, later]
      constructor
      · rintro ⟨before, c, after, hrest⟩
        exact ⟨d :: before, c, after, hrest⟩
      · rintro ⟨before, c, after, hcs, hc, hrest⟩
        cases before with
        | nil =>
          rw [List.nil_append, List.cons.injEq] at hcs
          rw [← hcs.1, hd] at hc
          cases hc
        | cons b before =>
          obtain rfl : d = b := (List.cons.inj hcs).1
          exact ⟨before, c, after, hcs, hc, hrest⟩
    · have hd' : p d = false := by simpa using hd
      have hmem : (o, run) ∈ (splitRuns p offset (d :: cs)).2 ↔
          (run = cs.takeWhile p ∧ run ≠ [] ∧ offset + d.utf8Size = o) ∨
            (o, run) ∈ (splitRuns p (offset + d.utf8Size) cs).2 := by
        simp only [splitRuns, hd', Bool.false_eq_true, if_false, hfront]
        by_cases hnil : cs.takeWhile p = []
        · simp only [hnil, List.isEmpty_nil, if_true]
          exact ⟨Or.inr, fun h => h.resolve_left fun ⟨h, hne, _⟩ => hne h⟩
        · simp only [List.isEmpty_iff, hnil, if_false, List.mem_cons, Prod.mk.injEq]
          refine or_congr_left ⟨fun ⟨ho, hr⟩ => ⟨hr, hr ▸ hnil, ho.symm⟩, fun ⟨hr, _, ho⟩ => ⟨ho.symm, hr⟩⟩
      rw [hmem, later, eq_takeWhile_iff]
      constructor
      · rintro (⟨⟨after, rfl, hall, hhead⟩, hne, rfl⟩ | ⟨before, c, after, hrest⟩)
        · exact ⟨[], d, after, rfl, hd', by simp, hne, hall, hhead⟩
        · exact ⟨d :: before, c, after, hrest⟩
      · rintro ⟨before, c, after, hcs, hc, ho, hne, hall, hhead⟩
        cases before with
        | nil =>
          obtain ⟨rfl, rfl⟩ := List.cons.inj hcs
          exact .inl ⟨⟨after, rfl, hall, hhead⟩, hne, by simpa using ho⟩
        | cons b before =>
          obtain rfl : d = b := (List.cons.inj hcs).1
          exact .inr ⟨before, c, after, hcs, hc, ho, hne, hall, hhead⟩

/-- The listed runs are exactly the maximal ones. -/
theorem mem_runsAt_iff {cs run : List Char} {o : Nat} :
    (o, run) ∈ runsAt p 0 cs ↔ IsRun p cs o run := by
  have hmem : (o, run) ∈ runsAt p 0 cs ↔
      (run = cs.takeWhile p ∧ run ≠ [] ∧ o = 0) ∨ (o, run) ∈ (splitRuns p 0 cs).2 := by
    have hfront := splitRuns_fst (p := p) 0 cs
    simp only [runsAt, hfront]
    by_cases hnil : cs.takeWhile p = []
    · simp only [hnil, List.isEmpty_nil, if_true]
      exact ⟨Or.inr, fun h => h.resolve_left fun ⟨h, hne, _⟩ => hne h⟩
    · simp only [List.isEmpty_iff, hnil, if_false, List.mem_cons, Prod.mk.injEq]
      exact or_congr_left ⟨fun ⟨ho, hr⟩ => ⟨hr, hr ▸ hnil, ho⟩, fun ⟨hr, _, ho⟩ => ⟨ho, hr⟩⟩
  rw [hmem, mem_splitRuns_snd_iff, eq_takeWhile_iff]
  constructor
  · rintro (⟨⟨after, rfl, hall, hhead⟩, hne, rfl⟩ | ⟨before, c, after, rfl, hc, rfl, hne, hall, hhead⟩)
    · exact ⟨[], after, rfl, rfl, hne, hall, by simp, hhead⟩
    · exact ⟨before ++ [c], after, by simp, by simp, hne, hall, by simpa using hc, hhead⟩
  · rintro ⟨before, after, rfl, rfl, hne, hall, hlast, hhead⟩
    rcases List.eq_nil_or_concat before with rfl | ⟨front, c, rfl⟩
    · exact .inl ⟨⟨after, rfl, hall, hhead⟩, hne, rfl⟩
    · exact .inr ⟨front, c, after, by simp, by simpa using hlast, by simp, hne, hall, hhead⟩

/-- A run behind the front one starts behind its end, and each ends before the
next starts. -/
theorem splitRuns_apart (offset : Nat) (cs : List Char) :
    (∀ r ∈ (splitRuns p offset cs).2, offset + byteLength (splitRuns p offset cs).1 < r.1) ∧
      (splitRuns p offset cs).2.Pairwise fun a b => a.1 + byteLength a.2 < b.1 := by
  induction cs generalizing offset with
  | nil => simp [splitRuns]
  | cons c cs ih =>
    have hc := c.utf8Size_pos
    obtain ⟨hfront, hpair⟩ := ih (offset + c.utf8Size)
    simp only [splitRuns]
    split
    · refine ⟨fun r hr => ?_, hpair⟩
      have := hfront r hr
      rw [byteLength_cons]
      omega
    · split
      · refine ⟨fun r hr => ?_, hpair⟩
        have := hfront r hr
        rw [byteLength_nil]
        omega
      · refine ⟨fun r hr => ?_, List.pairwise_cons.mpr ⟨hfront, hpair⟩⟩
        rw [byteLength_nil]
        rcases List.mem_cons.mp hr with rfl | hr
        · simp only
          omega
        · have := hfront r hr
          omega

/-- The runs stand in order, with a gap between any two. -/
theorem runsAt_apart (offset : Nat) (cs : List Char) :
    (runsAt p offset cs).Pairwise fun a b => a.1 + byteLength a.2 < b.1 := by
  obtain ⟨hfront, hpair⟩ := splitRuns_apart (p := p) offset cs
  simp only [runsAt]
  split
  · exact hpair
  · exact List.pairwise_cons.mpr ⟨hfront, hpair⟩

/-! ## Runs of a longer text -/

/-- The runs of a text do not depend on where it starts. -/
theorem splitRuns_snd_map (offset other : Nat) (cs : List Char) :
    (splitRuns p offset cs).2.map (·.2) = (splitRuns p other cs).2.map (·.2) := by
  induction cs generalizing offset other with
  | nil => rfl
  | cons c cs ih =>
    have hrest := ih (offset + c.utf8Size) (other + c.utf8Size)
    simp only [splitRuns, splitRuns_fst]
    split
    · exact hrest
    · split
      · exact hrest
      · rw [List.map_cons, List.map_cons, hrest]

/-- The front run, if there is one, and the runs behind it. -/
theorem runs_eq (offset : Nat) (cs : List Char) :
    runs p cs =
      if cs.takeWhile p = [] then (splitRuns p offset cs).2.map (·.2)
      else cs.takeWhile p :: (splitRuns p offset cs).2.map (·.2) := by
  rw [splitRuns_snd_map offset 0]
  simp only [runs, runsAt, splitRuns_fst, List.isEmpty_iff]
  split <;> rfl

theorem runs_cons_of_neg {c : Char} (hc : p c = false) (cs : List Char) :
    runs p (c :: cs) = runs p cs := by
  have hfront : (c :: cs).takeWhile p = [] := by simp [hc]
  rw [runs_eq 0, if_pos hfront, runs_eq (0 + c.utf8Size) cs]
  simp only [splitRuns, hc, splitRuns_fst, List.isEmpty_iff, Bool.false_eq_true, if_false]
  split <;> rfl

theorem runs_cons_of_pos {c : Char} (hc : p c = true) (offset : Nat) (cs : List Char) :
    runs p (c :: cs) = (c :: cs.takeWhile p) :: (splitRuns p offset cs).2.map (·.2) := by
  have hfront : (c :: cs).takeWhile p = c :: cs.takeWhile p := by simp [hc]
  rw [runs_eq 0, hfront, if_neg (List.cons_ne_nil _ _), splitRuns_snd_map offset (0 + c.utf8Size)]
  simp only [splitRuns, hc, if_true]

/-- A run goes on with the next character of the class. -/
theorem runs_cons_cons {c d : Char} (hc : p c = true) (hd : p d = true) (cs : List Char) :
    ∃ run rest, runs p (d :: cs) = run :: rest ∧ runs p (c :: d :: cs) = (c :: run) :: rest := by
  refine ⟨(d :: cs).takeWhile p, _, ?_, runs_cons_of_pos hc 0 _⟩
  rw [runs_eq 0, if_neg (by simp [hd])]

/-- A run ends where the class does. -/
theorem runs_cons_of_head {c : Char} (hc : p c = true) {cs : List Char}
    (h : ∀ d ∈ cs.head?, p d = false) : runs p (c :: cs) = [c] :: runs p cs := by
  have hfront : cs.takeWhile p = [] := by
    cases cs with
    | nil => rfl
    | cons d cs => simp [h d rfl]
  rw [runs_cons_of_pos hc 0, hfront, runs_eq 0, if_pos hfront]

theorem of_mem_runs {cs run : List Char} (h : run ∈ runs p cs) :
    run ≠ [] ∧ ∀ c ∈ run, p c = true := by
  obtain ⟨⟨offset, run⟩, hrun, rfl⟩ := List.mem_map.mp h
  obtain ⟨_, _, _, _, hne, hall, _⟩ := mem_runsAt_iff.mp hrun
  exact ⟨hne, hall⟩

/-! ## The ends of a text -/

theorem dropWhile_of_head {cs : List Char} (h : ∀ c ∈ cs.head?, p c = false) :
    cs.dropWhile p = cs := by
  cases cs with
  | nil => rfl
  | cons c cs => exact List.dropWhile_cons_of_neg (by simp [h c rfl])

/-- Trimming leaves of a text what begins and ends outside the class. -/
theorem trimEndOf_trimStartOf {lead core trail : List Char} (hlead : ∀ c ∈ lead, p c = true)
    (htrail : ∀ c ∈ trail, p c = true) (hhead : ∀ c ∈ core.head?, p c = false)
    (hlast : ∀ c ∈ core.getLast?, p c = false) :
    trimEndOf p (trimStartOf p (lead ++ core ++ trail)) = core := by
  rw [trimStartOf, List.append_assoc, List.dropWhile_append_of_pos hlead]
  cases core with
  | nil =>
    have hnil : trail.dropWhile p = [] := by
      rw [← List.append_nil trail, List.dropWhile_append_of_pos htrail, List.dropWhile_nil]
    rw [List.nil_append, hnil]
    rfl
  | cons c core =>
    have hback : ∀ c ∈ trail.reverse, p c = true := fun c hc => htrail c (List.mem_reverse.mp hc)
    have hstop : (c :: core).reverse.dropWhile p = (c :: core).reverse :=
      dropWhile_of_head (by rwa [List.head?_reverse])
    have hstart : (c :: core ++ trail).dropWhile p = c :: core ++ trail := dropWhile_of_head hhead
    rw [hstart, trimEndOf, List.reverse_append,
      List.dropWhile_append_of_pos hback, hstop, List.reverse_reverse]

/-! ## White space at the ends -/

theorem trim_of_ends {cs : List Char} (hhead : ∀ c ∈ cs.head?, isSpace c = false)
    (hlast : ∀ c ∈ cs.getLast?, isSpace c = false) : trim cs = cs := by
  have h := trimEndOf_trimStartOf (List.forall_mem_nil _) (List.forall_mem_nil _) hhead hlast
  rwa [List.nil_append, List.append_nil] at h

/-- The parts of a text: the white space in front, what stands between, and the
white space behind. -/
structure Trims (cs lead core trail : List Char) : Prop where
  parts : cs = lead ++ core ++ trail
  lead_blank : isBlank lead = true
  trail_blank : isBlank trail = true
  starts : ∀ c ∈ core.head?, isSpace c = false
  stops : ∀ c ∈ core.getLast?, isSpace c = false

theorem trimEndOf_append (cs : List Char) :
    trimEndOf p cs ++ (cs.reverse.takeWhile p).reverse = cs := by
  rw [trimEndOf, ← List.reverse_append, List.takeWhile_append_dropWhile, List.reverse_reverse]

theorem trim_trims (cs : List Char) :
    ∃ trail, Trims cs (cs.takeWhile isSpace) (trim cs) trail := by
  have hrest := trimEndOf_append (p := isSpace) (trimStartOf isSpace cs)
  refine ⟨((trimStartOf isSpace cs).reverse.takeWhile isSpace).reverse,
    ⟨?_, List.all_takeWhile, ?_, fun c hc => ?_, fun c hc => ?_⟩⟩
  · rw [List.append_assoc, trim, hrest]
    exact List.takeWhile_append_dropWhile.symm
  · rw [isBlank, List.all_reverse]
    exact List.all_takeWhile
  · have hhead : c ∈ (trimStartOf isSpace cs).head? := by
      rw [← hrest, List.head?_append, show (trimEndOf isSpace _).head? = some c from hc]
      rfl
    exact of_mem_head?_dropWhile hhead
  · rw [trim, trimEndOf, List.getLast?_reverse] at hc
    exact of_mem_head?_dropWhile hc

theorem Trims.core_eq_nil_iff {cs lead core trail : List Char} (h : Trims cs lead core trail) :
    core = [] ↔ isBlank cs = true := by
  rw [h.parts, isBlank, List.all_append, List.all_append]
  constructor
  · rintro rfl
    simp [show lead.all isSpace = true from h.lead_blank,
      show trail.all isSpace = true from h.trail_blank]
  · intro hall
    cases core with
    | nil => rfl
    | cons c core => simp [h.starts c rfl] at hall

end HoverTips.Text
