import HoverTips.Batch.Progress
import HoverTips.Proofs.Text.Lines

/-! # The pace of progress

Whatever the clock does between the ticks, a tick prints a line when none was printed
before it, or when it comes an interval after the last one that did. All other ticks
change nothing. So lines are an interval apart, and each of them is one line of the
text that was printed. -/

namespace HoverTips

/-! ## Texts of numbers -/

namespace Text

theorem isLineBreak_of_isDigit {c : Char} (h : c.isDigit = true) : isLineBreak c = false := by
  have hascii : c.toNat < 0x80 := by
    simp only [Char.isDigit, Bool.and_eq_true, decide_eq_true_eq, UInt32.le_iff_toNat_le] at h
    change c.val.toNat < 0x80
    exact Nat.lt_of_le_of_lt h.2 (by decide)
  have hword : isWord c = true := by
    rw [isWord, if_pos hascii, isAsciiAlphanumeric, h, Bool.or_true, Bool.true_or]
  rw [Bool.eq_false_iff]
  intro hbreak
  rw [isWord_of_isSpace (isSpace_of_isLineBreak hbreak)] at hword
  cases hword

theorem oneLine_nat (n : Nat) : OneLine (toString n) := by
  intro c hc
  have hdigits : (toString n).toList = Nat.toDigits 10 n := Nat.toList_repr
  rw [hdigits] at hc
  exact isLineBreak_of_isDigit (Nat.isDigit_of_mem_toDigits (by omega) (by omega) hc)

theorem oneLine_replicate {c : Char} (h : isLineBreak c = false) (n : Nat) :
    OneLine (String.ofList (List.replicate n c)) := by
  intro d hd
  rw [String.toList_ofList] at hd
  rw [List.eq_of_mem_replicate hd, h]

theorem oneLine_padLeft {s : String} (h : OneLine s) (width : Nat) : OneLine (padLeft width s) :=
  (oneLine_replicate (by decide) _).append h

theorem oneLine_digits (width n : Nat) : OneLine (digits width n) :=
  (oneLine_replicate (by decide) _).append (oneLine_nat n)

theorem oneLine_fixedPlaces (places : Nat) (x : Float) : OneLine (fixedPlaces places x) :=
  ((oneLine_nat _).append (by decide)).append (oneLine_digits _ _)

end Text

namespace Progress

open Text (OneLine)

variable {p : Progress} {m : Metrics} {now : Instant}

theorem paint_oneLine (p : Progress) (ink : Ink) {text : String} (h : OneLine text) :
    OneLine (p.paint ink text) := by
  unfold paint
  split
  · have hcode : OneLine (controlSequence ("38;5;" ++ ink.code)) := by cases ink <;> decide
    exact (hcode.append h).append (by decide)
  · exact h

/-- A progress line is one line. -/
theorem line_eq (p : Progress) (m : Metrics) (now : Instant) :
    ∃ text, OneLine text ∧ p.line m now = text ++ "\n" := by
  have hend : "s\n" = "s" ++ "\n" := by decide
  refine ⟨_, ?_, by rw [line, hend, ← String.append_assoc]⟩
  simp only [Text.oneLine_append_iff]
  refine ⟨⟨⟨⟨⟨⟨⟨?_, by decide⟩, ?_⟩, by decide⟩, ?_⟩, by decide⟩, ?_⟩, by decide⟩
  · exact p.paint_oneLine .cyan (Text.oneLine_padLeft (Text.oneLine_nat _) _)
  · exact p.paint_oneLine .cyan (Text.oneLine_padLeft (Text.oneLine_nat _) _)
  · exact p.paint_oneLine .green
      ((Text.oneLine_padLeft (Text.oneLine_fixedPlaces _ _) _).append (by decide))
  · exact Text.oneLine_fixedPlaces _ _

theorem count_line (p : Progress) (m : Metrics) (now : Instant) :
    (p.line m now).toList.count '\n' = 1 := by
  obtain ⟨text, htext, hline⟩ := p.line_eq m now
  have hnone : '\n' ∉ text.toList := by
    intro hmem
    cases htext _ hmem
  rw [hline, String.toList_append, List.count_append, List.count_eq_zero.mpr hnone]
  decide

theorem line_ne_empty (p : Progress) (m : Metrics) (now : Instant) : p.line m now ≠ "" := by
  intro he
  have hcount := p.count_line m now
  rw [he] at hcount
  cases hcount

/-! ## One tick -/

/-- A line is due when none was printed, and then when the interval has passed. -/
theorem isDue_iff : p.isDue now = true ↔
    ∀ last ∈ p.lastLine, p.interval = 0 ∨ last.nanos + p.interval ≤ now.nanos := by
  unfold isDue
  cases p.lastLine with
  | none => simp
  | some last =>
    simp only [Option.mem_some_iff, forall_eq']
    rw [decide_eq_true_iff, Instant.since]
    omega

theorem tick_of_due (m : Metrics) (h : p.isDue now = true) :
    p.tick m now = { p with lastLine := some now, printed := p.printed ++ p.line m now } := by
  rw [tick, if_pos h, print]

theorem tick_of_not_due (m : Metrics) (h : p.isDue now = false) : p.tick m now = p := by
  rw [tick, if_neg (by simp [h])]

theorem tick_interval : (p.tick m now).interval = p.interval := by
  unfold tick print
  split <;> rfl

/-- A tick that prints is one at which a line is due. -/
theorem tick_printed_eq_iff : (p.tick m now).printed = p.printed ↔ p.isDue now = false := by
  cases h : p.isDue now with
  | true =>
    rw [tick_of_due m h]
    simp [line_ne_empty]
  | false =>
    rw [tick_of_not_due m h]
    simp

/-! ## Ticks one after the other -/

/-- What some ticks print, each with the metrics that it reads. -/
def ticks (p : Progress) (calls : List (Metrics × Instant)) : Progress :=
  calls.foldl (fun p c => p.tick c.1 c.2) p

/-- The times of the ticks that print. -/
def printTimes (p : Progress) : List (Metrics × Instant) → List Instant
  | [] => []
  | (m, now) :: later =>
    let after := p.tick m now
    if after.printed = p.printed then after.printTimes later else now :: after.printTimes later

variable {calls : List (Metrics × Instant)}

theorem printTimes_cons (p : Progress) (m : Metrics) (now : Instant)
    (later : List (Metrics × Instant)) :
    p.printTimes ((m, now) :: later) =
      if p.isDue now then now :: (p.tick m now).printTimes later else p.printTimes later := by
  rw [printTimes]
  cases h : p.isDue now with
  | true => simp [tick_printed_eq_iff, h]
  | false => simp [tick_of_not_due m h]

theorem ticks_interval (p : Progress) (calls : List (Metrics × Instant)) :
    (p.ticks calls).interval = p.interval := by
  induction calls generalizing p with
  | nil => rfl
  | cons c later ih =>
    have hstep : (p.ticks (c :: later)) = (p.tick c.1 c.2).ticks later := rfl
    rw [hstep, ih, tick_interval]

/-- The time that is kept is that of the last tick that printed. -/
theorem lastLine_ticks (p : Progress) (calls : List (Metrics × Instant)) :
    (p.ticks calls).lastLine = (p.printTimes calls).getLast?.or p.lastLine := by
  induction calls generalizing p with
  | nil => rfl
  | cons c later ih =>
    obtain ⟨m, now⟩ := c
    have hstep : (p.ticks ((m, now) :: later)) = (p.tick m now).ticks later := rfl
    rw [hstep, ih, printTimes_cons]
    cases h : p.isDue now with
    | true =>
      rw [if_pos rfl, tick_of_due m h, List.getLast?_cons]
      cases (printTimes _ later).getLast? <;> rfl
    | false => rw [if_neg (by simp), tick_of_not_due m h]

/-- As many lines are printed as ticks print. -/
theorem count_ticks (p : Progress) (calls : List (Metrics × Instant)) :
    (p.ticks calls).printed.toList.count '\n' =
      p.printed.toList.count '\n' + (p.printTimes calls).length := by
  induction calls generalizing p with
  | nil => rfl
  | cons c later ih =>
    obtain ⟨m, now⟩ := c
    have hstep : (p.ticks ((m, now) :: later)) = (p.tick m now).ticks later := rfl
    rw [hstep, ih, printTimes_cons]
    cases h : p.isDue now with
    | true =>
      rw [if_pos rfl, tick_of_due m h, String.toList_append, List.count_append, count_line,
        List.length_cons]
      omega
    | false => rw [if_neg (by simp), tick_of_not_due m h]

/-- The lines that follow come an interval after each other, and after the last one. -/
theorem printTimes_apart (h : 0 < p.interval) (calls : List (Metrics × Instant)) :
    (p.printTimes calls).Pairwise (fun a b => a.nanos + p.interval ≤ b.nanos) ∧
      ∀ last ∈ p.lastLine, ∀ time ∈ p.printTimes calls, last.nanos + p.interval ≤ time.nanos := by
  induction calls generalizing p with
  | nil => simp [printTimes]
  | cons c later ih =>
    obtain ⟨m, now⟩ := c
    rw [printTimes_cons]
    cases hdue : p.isDue now with
    | true =>
      -- every later time is measured from this one
      obtain ⟨hapart, hlater⟩ := ih (p := p.tick m now) (by rwa [tick_interval])
      rw [tick_interval, tick_of_due m hdue] at hapart hlater
      have hnow : ∀ time ∈ printTimes _ later, now.nanos + p.interval ≤ time.nanos :=
        hlater now rfl
      rw [if_pos rfl, tick_of_due m hdue]
      refine ⟨List.pairwise_cons.mpr ⟨hnow, hapart⟩, ?_⟩
      intro last hlast time htime
      have hsince : last.nanos + p.interval ≤ now.nanos :=
        (isDue_iff.mp hdue last hlast).resolve_left (by omega)
      rcases List.mem_cons.mp htime with rfl | htime
      · exact hsince
      · have := hnow time htime
        omega
    | false =>
      rw [if_neg (by simp)]
      exact ih h

/-- Over some times that are an interval apart so many intervals pass. -/
theorem intervals_passed {interval : Nat} {first last : Instant} {times : List Instant}
    (h : times.Pairwise fun a b => a.nanos + interval ≤ b.nanos)
    (hfirst : times.head? = some first) (hlast : times.getLast? = some last) :
    first.nanos + (times.length - 1) * interval ≤ last.nanos := by
  induction times generalizing first with
  | nil => cases hfirst
  | cons time later ih =>
    obtain rfl := Option.some.inj hfirst
    cases later with
    | nil =>
      obtain rfl := Option.some.inj hlast
      simp
    | cons next later =>
      rw [List.pairwise_cons] at h
      rw [List.getLast?_cons_cons] at hlast
      have hnext : time.nanos + interval ≤ next.nanos := h.1 next (.head _)
      have hrest := ih h.2 rfl hlast
      simp only [List.length_cons, Nat.add_sub_cancel] at hrest ⊢
      rw [Nat.succ_mul]
      omega

theorem isDue_new (interval : Nat) (color : Bool) (now : Instant) :
    (new interval color).isDue now = true := rfl

/-- The first tick of all prints. -/
theorem printTimes_new_eq_nil_iff (interval : Nat) (color : Bool) :
    (new interval color).printTimes calls = [] ↔ calls = [] := by
  cases calls with
  | nil => simp [printTimes]
  | cons c later =>
    obtain ⟨m, now⟩ := c
    simp [printTimes_cons, isDue_new]

/-- When a tick prints, by the times of those before it. -/
theorem tick_prints_iff (interval : Nat) (color : Bool) (front : List (Metrics × Instant))
    (m : Metrics) (now : Instant) :
    let before := (new interval color).ticks front
    (before.tick m now).printed ≠ before.printed ↔ front = [] ∨ interval = 0 ∨
      ∃ last, ((new interval color).printTimes front).getLast? = some last ∧
        last.nanos + interval ≤ now.nanos := by
  intro before
  have hlast : before.lastLine = ((new interval color).printTimes front).getLast? := by
    rw [lastLine_ticks]
    exact Option.or_none
  have hinterval : before.interval = interval := ticks_interval _ front
  rw [ne_eq, tick_printed_eq_iff, Bool.not_eq_false, isDue_iff, hlast, hinterval]
  cases hprinted : ((new interval color).printTimes front).getLast? with
  | none =>
    have hfront : front = [] := by
      rwa [List.getLast?_eq_none_iff, printTimes_new_eq_nil_iff] at hprinted
    simp [hfront]
  | some last =>
    have hfront : front ≠ [] := by
      intro he
      rw [he] at hprinted
      cases hprinted
    simp [hfront]

/-- Whatever the clock shows at the ticks, a tick prints when it is the first one, when
there is no interval to wait for, and when it comes an interval after the last tick that
printed. It prints one line, and otherwise nothing has changed after it. So with an
interval to wait for, lines come in the order of time with an interval between any two,
and in all as many intervals pass as there are lines after the first. -/
theorem ticks_throttled (interval : Nat) (color : Bool) (calls : List (Metrics × Instant)) :
    let start := new interval color
    let times := start.printTimes calls
    (∀ front m now back, calls = front ++ (m, now) :: back →
      let before := start.ticks front
      let after := before.tick m now
      (after.printed ≠ before.printed ↔ front = [] ∨ interval = 0 ∨
        ∃ last, (start.printTimes front).getLast? = some last ∧
          last.nanos + interval ≤ now.nanos) ∧
      (after.printed ≠ before.printed → after.printed = before.printed ++ before.line m now) ∧
      (after.printed = before.printed → after = before)) ∧
    (start.ticks calls).printed.toList.count '\n' = times.length ∧
    (0 < interval →
      times.Pairwise (fun a b => a.nanos < b.nanos ∧ a.nanos + interval ≤ b.nanos) ∧
      ∀ first last, times.head? = some first → times.getLast? = some last →
        first.nanos + (times.length - 1) * interval ≤ last.nanos) := by
  intro start times
  refine ⟨?_, ?_, ?_⟩
  · intro front m now back _ before after
    refine ⟨tick_prints_iff interval color front m now, ?_, ?_⟩
    · intro hprints
      rw [ne_eq, tick_printed_eq_iff, Bool.not_eq_false] at hprints
      exact congrArg printed (tick_of_due m hprints)
    · intro hsilent
      exact tick_of_not_due m (tick_printed_eq_iff.mp hsilent)
  · rw [count_ticks]
    exact Nat.zero_add _
  · intro hpositive
    have hapart : times.Pairwise fun a b => a.nanos + interval ≤ b.nanos :=
      (printTimes_apart (p := start) hpositive calls).1
    refine ⟨hapart.imp fun {a b} hab => ⟨by omega, hab⟩, ?_⟩
    intro first last hfirst hlast
    exact intervals_passed hapart hfirst hlast

/-- Ticks under a clock that goes back and comes again just in time. -/
def unsteadyTicks : List (Metrics × Instant) :=
  [(.empty, ⟨1000⟩), (.empty, ⟨10⟩), (.empty, ⟨1333⟩)]

theorem printTimes_unsteady : (new 333 false).printTimes unsteadyTicks = [⟨1000⟩, ⟨1333⟩] := by
  have hfirst : (new 333 false).isDue ⟨1000⟩ = true := isDue_new ..
  have hback : ((new 333 false).tick .empty ⟨1000⟩).isDue ⟨10⟩ = false := by
    rw [tick_of_due _ hfirst]
    rfl
  have hlast : ((new 333 false).tick .empty ⟨1000⟩).isDue ⟨1333⟩ = true := by
    rw [tick_of_due _ hfirst]
    rfl
  rw [unsteadyTicks, printTimes_cons, if_pos hfirst, printTimes_cons, if_neg (by simp [hback]),
    printTimes_cons, if_pos hlast, printTimes]

/-- The tick in the past prints nothing, and the last one comes one interval after the
first. -/
theorem ticks_throttled_unsteady :
    let start := new 333 false
    let first := start.ticks [(.empty, ⟨1000⟩)]
    unsteadyTicks = [(.empty, ⟨1000⟩)] ++ (.empty, ⟨10⟩) :: [(.empty, ⟨1333⟩)] ∧
      first.tick .empty ⟨10⟩ = first ∧
      (start.ticks unsteadyTicks).printed.toList.count '\n' = 2 ∧
      0 < 333 ∧ 1000 + (2 - 1) * 333 ≤ 1333 := by
  intro start first
  obtain ⟨htick, hcount, hapart⟩ := ticks_throttled 333 false unsteadyTicks
  obtain ⟨hprints, -, hsilent⟩ := htick [(.empty, ⟨1000⟩)] .empty ⟨10⟩ [(.empty, ⟨1333⟩)] rfl
  have hfirst : (new 333 false).printTimes [(.empty, ⟨1000⟩)] = [⟨1000⟩] := by
    rw [printTimes_cons, if_pos (isDue_new ..), printTimes]
  rw [printTimes_unsteady] at hcount hapart
  refine ⟨rfl, hsilent ?_, hcount, by decide, ?_⟩
  · refine Decidable.byContradiction fun hne => ?_
    rw [hfirst] at hprints
    simpa using hprints.mp hne
  · exact (hapart (by decide)).2 ⟨1000⟩ ⟨1333⟩ rfl rfl

end Progress

end HoverTips
