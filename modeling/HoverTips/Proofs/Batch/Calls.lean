import HoverTips.Proofs.Batch.Pages

/-! # Calls on files

Two calls make tooltips, one for a block and one for prose, and they go the same
way: the file and the parser failures are noted, drafts are added to the page of
the file, and what was added is counted. What a call answers depends on the ids
of that page alone, and the counters learn nothing but what the call's entry in
a log says. A runner that is finalized only gets the new ids. -/

namespace HoverTips

/-- A call on a file. -/
inductive Call where
  | block (file : String) (block : Markdown.CodeBlock)
  | prose (file text : String)
  deriving DecidableEq, Repr

/-- What a call hands back. -/
inductive Answer where
  | block (output : Except DuplicateId BlockOutput)
  | prose (output : Except DuplicateId (List TooltipRecord))

/-- The tooltips that a call hands back, none when it fails. -/
def Answer.records : Answer → List TooltipRecord
  | block (.ok output) => output.tooltips
  | prose (.ok records) => records
  | block (.error _) | prose (.error _) => []

namespace Call

def file : Call → String
  | block file _ | prose file _ => file

/-- The parser failures that a call meets, under the id of its block. -/
def warnings (ctx : Context) : Call → List MetricsError
  | block _ b => (ctx.analysis b).warnings.map fun w => ⟨b.id, w⟩
  | prose _ _ => []

/-- What a call adds to the page of its file. -/
def assemble (ctx : Context) : Call → PageIds → Except DuplicateId Assembled × PageIds
  | block _ b, p => p.assembleBlock b.id b.language (ctx.analysis b)
  | prose _ text, p => p.assembleProse ctx.triggers text

/-- The tooltips that a call sets aside, none when it fails. -/
def rejected (ctx : Context) (c : Call) (p : PageIds) : List Rejected :=
  match (c.assemble ctx p).1 with
  | .ok a => a.rejected
  | .error _ => []

/-- The answer to a call, by the tooltips it makes. -/
def answer (ctx : Context) : Call → Except DuplicateId (List TooltipRecord) → Answer
  | block _ b, made => .block (made.map fun tooltips => ⟨b.id, b.language, ctx.analysis b, tooltips⟩)
  | prose _ _, made => .prose made

theorem answer_records_ok (ctx : Context) (c : Call) (records : List TooltipRecord) :
    (c.answer ctx (.ok records)).records = records := by
  cases c <;> rfl

theorem answer_records_error (ctx : Context) (c : Call) (e : DuplicateId) :
    (c.answer ctx (.error e)).records = [] := by
  cases c <;> rfl

end Call

/-- A call in a log, with what became of it. -/
structure Entry where
  call : Call
  answer : Answer
  rejected : List Rejected

/-- What a call leaves among the failures of a batch: those of its parser, and
then the tooltips that were set aside. -/
def Entry.failures (ctx : Context) (e : Entry) : List MetricsError :=
  e.call.warnings ctx ++ e.rejected.map fun x => ⟨x.term, x.refusal.message⟩

namespace Metrics

/-- Notes failures in order. -/
def recordErrors (errors : List MetricsError) (m : Metrics) : Metrics :=
  errors.foldl (fun m e => m.recordError e.term e.detail) m

/-- Counts tooltips in order. -/
def recordAll (records : List TooltipRecord) (m : Metrics) : Metrics :=
  records.foldl (fun m x => m.record x) m

/-- Counts what an entry says. -/
def note (ctx : Context) (now : Instant) (e : Entry) (m : Metrics) : Metrics :=
  (((m.start now).fileSeen e.call.file).recordErrors (e.failures ctx)).recordAll e.answer.records

theorem recordErrors_append (es fs : List MetricsError) (m : Metrics) :
    m.recordErrors (es ++ fs) = (m.recordErrors es).recordErrors fs :=
  List.foldl_append

end Metrics

namespace Runner

/-! ## Counting -/

theorem count_open {r : Runner} (h : r.finalized = false) (f : Metrics → Metrics) :
    r.count f = { r with metrics := f r.metrics } := by
  simp [count, h]

theorem count_final {r : Runner} (h : r.finalized = true) (f : Metrics → Metrics) :
    r.count f = r := by
  simp [count, h]

theorem count_finalized (f : Metrics → Metrics) (r : Runner) :
    (r.count f).finalized = r.finalized := by
  unfold count
  split <;> rfl

theorem count_count (f g : Metrics → Metrics) (r : Runner) :
    (r.count f).count g = r.count fun m => g (f m) := by
  cases h : r.finalized <;> simp [count, h]

/-- Counting one after the other is counting at once. -/
theorem foldl_count {α : Type} (f : α → Metrics → Metrics) (xs : List α) (r : Runner) :
    xs.foldl (fun r x => r.count (f x)) r = r.count fun m => xs.foldl (fun m x => f x m) m := by
  induction xs generalizing r with
  | nil => simp [count]
  | cons x xs ih => rw [List.foldl_cons, ih, count_count]; rfl

theorem countWarnings_eq (block : String) (warnings : List String) (r : Runner) :
    r.countWarnings block warnings =
      r.count (·.recordErrors (warnings.map fun w => ⟨block, w⟩)) := by
  rw [countWarnings, foldl_count fun w m => m.recordError block w]
  simp only [Metrics.recordErrors, List.foldl_map]

/-- The counters after a tally: the refused tooltips and then the accepted ones. -/
def tallied (a : Assembled) (m : Metrics) : Metrics :=
  (m.recordErrors (a.rejected.map fun x => ⟨x.term, x.refusal.message⟩)).recordAll a.records

theorem tally_eq (now : Instant) (a : Assembled) (r : Runner) :
    r.tally now a =
      if r.finalized then r
      else
        { r with
          metrics := tallied a r.metrics
          progress := r.progress.tick (tallied a r.metrics) now } := by
  have hcounted : a.records.foldl (fun r x => r.count (·.record x))
      (a.rejected.foldl (fun r x => r.count (·.recordError x.term x.refusal.message)) r) =
        r.count (tallied a) := by
    rw [foldl_count fun (x : Rejected) m => m.recordError x.term x.refusal.message,
      foldl_count fun x m => m.record x, count_count]
    congr 1
    funext m
    simp only [tallied, Metrics.recordErrors, Metrics.recordAll, List.foldl_map]
  unfold tally
  dsimp only
  rw [hcounted, count_finalized]
  cases h : r.finalized with
  | true => simp [count_final h]
  | false => simp [count_open h]

/-! ## Calls -/

/-- Makes a call. -/
def answer (ctx : Context) (clock : Readings) : Call → Runner → Answer × Runner
  | .block file block, r =>
    let (output, r) := r.processBlock ctx clock file block
    (.block output, r)
  | .prose file text, r =>
    let (output, r) := r.processProse ctx clock file text
    (.prose output, r)

theorem answer_block {ctx : Context} {clock : Readings} {file : String} {b : Markdown.CodeBlock}
    {r s : Runner} {output : Except DuplicateId BlockOutput}
    (h : r.processBlock ctx clock file b = (output, s)) :
    r.answer ctx clock (.block file b) = (.block output, s) := by
  rw [answer, h]

theorem answer_prose {ctx : Context} {clock : Readings} {file text : String} {r s : Runner}
    {output : Except DuplicateId (List TooltipRecord)}
    (h : r.processProse ctx clock file text = (output, s)) :
    r.answer ctx clock (.prose file text) = (.prose output, s) := by
  rw [answer, h]

/-- The entry that a call has in a log. -/
def entry (ctx : Context) (clock : Readings) (c : Call) (r : Runner) : Entry :=
  ⟨c, (r.answer ctx clock c).1, c.rejected ctx (r.pageOf c.file)⟩

/-- The runner when a call starts to add tooltips. -/
def started (ctx : Context) (now : Instant) (c : Call) (r : Runner) : Runner :=
  r.count fun m => ((m.start now).fileSeen c.file).recordErrors (c.warnings ctx)

theorem started_pages (ctx : Context) (now : Instant) (c : Call) (r : Runner) :
    (r.started ctx now c).pages = r.pages := count_pages _ r

/-- The answer of `settle` is about the addition alone. -/
theorem settle_fst (now : Instant) (file : String)
    (outcome : Except DuplicateId Assembled × PageIds) (r : Runner) :
    (r.settle now file outcome).1 = outcome.1.map (·.records) := by
  unfold settle
  split <;> simp_all [Except.map]

/-- Both calls settle what they add to the page of their file. -/
theorem answer_eq (ctx : Context) (clock : Readings) (c : Call) (r : Runner) :
    r.answer ctx clock c =
      let out := (r.started ctx clock.entered c).settle clock.counted c.file
        (c.assemble ctx (r.pageOf c.file))
      (c.answer ctx out.1, out.2) := by
  rw [← pageOf_congr (started_pages ctx clock.entered c r) c.file]
  cases c with
  | block file b =>
    have hstarted : r.started ctx clock.entered (.block file b) =
        (r.enter clock.entered file).countWarnings b.id (ctx.analysis b).warnings := by
      rw [countWarnings_eq, enter, count_count]
      rfl
    rw [hstarted]
    rfl
  | prose file text =>
    have hstarted : r.started ctx clock.entered (.prose file text) = r.enter clock.entered file := rfl
    rw [hstarted]
    rfl

theorem answer_fst (ctx : Context) (clock : Readings) (c : Call) (r : Runner) :
    (r.answer ctx clock c).1 =
      c.answer ctx ((c.assemble ctx (r.pageOf c.file)).1.map (·.records)) := by
  rw [answer_eq, ← settle_fst]

theorem answer_pages (ctx : Context) (clock : Readings) (c : Call) (r : Runner) :
    (r.answer ctx clock c).2.pages =
      r.pages.insert c.file (c.assemble ctx (r.pageOf c.file)).2 := by
  rw [answer_eq]
  exact (settle_pages _ _ _ _).trans (by rw [started_pages])

/-- A call changes the page of its file, and no other. -/
theorem pageOf_answer (ctx : Context) (clock : Readings) (c : Call) (r : Runner) (file : String) :
    (r.answer ctx clock c).2.pageOf file =
      if c.file = file then (c.assemble ctx (r.pageOf file)).2 else r.pageOf file := by
  rw [pageOf, answer_pages, Std.TreeMap.getElem?_insert]
  by_cases h : c.file = file
  · simp [h]
  · simp [h, pageOf]

/-- A runner that is finalized gets the new ids, and stays as it was beside them. -/
theorem answer_final (ctx : Context) (clock : Readings) (c : Call) {r : Runner}
    (h : r.finalized = true) :
    (r.answer ctx clock c).2 =
      { r with pages := r.pages.insert c.file (c.assemble ctx (r.pageOf c.file)).2 } := by
  rw [answer_eq, started, count_final h]
  unfold settle
  dsimp only
  split
  · rfl
  · rw [tally_eq]
    exact if_pos h

/-- A runner that is not finalized counts what the entry of the call says. -/
theorem answer_open (ctx : Context) (clock : Readings) (c : Call) {r : Runner}
    (h : r.finalized = false) :
    (r.answer ctx clock c).2.finalized = false ∧
      (r.answer ctx clock c).2.metrics =
        r.metrics.note ctx clock.entered (r.entry ctx clock c) := by
  rw [entry, answer_fst, Call.rejected, answer_eq, started, count_open h]
  unfold settle
  dsimp only
  split
  · rename_i e he
    refine ⟨h, ?_⟩
    simp [he, Except.map, Metrics.note, Entry.failures, Call.answer_records_error,
      Metrics.recordAll]
  · rename_i a ha
    rw [tally_eq]
    simp [h, ha, Except.map, Metrics.note, Entry.failures, Call.answer_records_ok, tallied,
      Metrics.recordErrors_append]

theorem answer_finalized (ctx : Context) (clock : Readings) (c : Call) (r : Runner) :
    (r.answer ctx clock c).2.finalized = r.finalized := by
  cases h : r.finalized with
  | true => rw [answer_final ctx clock c h]; exact h
  | false => exact (answer_open ctx clock c h).1

/-! ## Calls in order -/

/-- Makes calls in order, each at its readings of the clock, and hands back the log. -/
def perform (ctx : Context) : List (Readings × Call) → Runner → List Entry × Runner
  | [], r => ([], r)
  | (clock, c) :: calls, r =>
    let (log, after) := perform ctx calls (r.answer ctx clock c).2
    (r.entry ctx clock c :: log, after)

theorem perform_append (ctx : Context) (calls more : List (Readings × Call)) (r : Runner) :
    perform ctx (calls ++ more) r =
      ((perform ctx calls r).1 ++ (perform ctx more (perform ctx calls r).2).1,
        (perform ctx more (perform ctx calls r).2).2) := by
  induction calls generalizing r with
  | nil => rfl
  | cons c calls ih =>
    rw [List.cons_append, perform, ih]
    rfl

theorem perform_calls (ctx : Context) (calls : List (Readings × Call)) (r : Runner) :
    (perform ctx calls r).1.map (·.call) = calls.map Prod.snd := by
  induction calls generalizing r with
  | nil => rfl
  | cons c calls ih => rw [perform, List.map_cons, List.map_cons, ih]; rfl

theorem perform_finalized (ctx : Context) (calls : List (Readings × Call)) (r : Runner) :
    (perform ctx calls r).2.finalized = r.finalized := by
  induction calls generalizing r with
  | nil => rfl
  | cons c calls ih =>
    rw [perform]
    exact (ih _).trans (answer_finalized ctx c.1 c.2 r)

/-- Calls leave the pages of other files as they are. -/
theorem pageOf_perform (ctx : Context) {calls : List (Readings × Call)} {file : String}
    (h : ∀ c ∈ calls, c.2.file ≠ file) (r : Runner) :
    (perform ctx calls r).2.pageOf file = r.pageOf file := by
  induction calls generalizing r with
  | nil => rfl
  | cons c calls ih =>
    rw [List.forall_mem_cons] at h
    rw [perform]
    exact (ih h.2 _).trans ((pageOf_answer _ _ _ _ _).trans (if_neg h.1))

/-- Calls on a runner that is finalized change nothing but the ids of pages. -/
theorem perform_final (ctx : Context) (calls : List (Readings × Call)) {r : Runner}
    (h : r.finalized = true) :
    (perform ctx calls r).2 = { r with pages := (perform ctx calls r).2.pages } := by
  induction calls generalizing r with
  | nil => rfl
  | cons c calls ih =>
    have hafter := answer_final ctx c.1 c.2 h
    rw [perform]
    refine (ih (by rw [hafter]; exact h)).trans ?_
    rw [hafter]

end Runner

end HoverTips
