import HoverTips.Proofs.Batch.Counting
import HoverTips.Proofs.Batch.Stopping
import HoverTips.Proofs.Tree.Results

/-! # Files do not interfere

What a call answers depends on the calls on its own file that came before it, and
on nothing else of the runner. So calls on different files can be made in any
order, as long as those on one file keep theirs: every call answers the same, and
the counters come out the same but for the order of files and failures. -/

namespace HoverTips

/-- The entries that calls on one file have, by the ids of its page. -/
def Call.entries (ctx : Context) : List Call → PageIds → List Entry
  | [], _ => []
  | c :: cs, p =>
    ⟨c, c.answer ctx ((c.assemble ctx p).1.map (·.records)), c.rejected ctx p⟩ ::
      entries ctx cs (c.assemble ctx p).2

/-- Lists that agree on every key hold the same things. -/
theorem perm_of_filter_key {α κ : Type} [DecidableEq κ] (key : α → κ) {xs ys : List α}
    (h : ∀ k, xs.filter (key · == k) = ys.filter (key · == k)) : xs.Perm ys := by
  classical
  refine List.perm_iff_count.mpr fun a => ?_
  have hcount : ∀ zs : List α, zs.count a = (zs.filter (key · == key a)).count a := by
    intro zs
    rw [List.count_filter]
    simp
  rw [hcount xs, hcount ys, h]

theorem mapM_ok {ε α β : Type} {f : α → Except ε β} {g : α → β} {xs : List α}
    (h : ∀ x ∈ xs, f x = .ok (g x)) : xs.mapM f = .ok (xs.map g) := by
  rw [Tree.mapM_eq_ok_iff, List.map_map]
  exact List.map_congr_left h

theorem mapM_error {ε α β : Type} {f : α → Except ε β} {x : α} {xs : List α} {e : ε}
    (hx : x ∈ xs) (h : f x = .error e) : ∃ e', xs.mapM f = .error e' := by
  cases hall : xs.mapM f with
  | error e' => exact ⟨e', rfl⟩
  | ok ys =>
    have hmem : f x ∈ ys.map Except.ok := by
      rw [← Tree.mapM_eq_ok_iff.mp hall]
      exact List.mem_map_of_mem hx
    obtain ⟨y, _, hy⟩ := List.mem_map.mp hmem
    rw [h] at hy
    cases hy

namespace Runner

variable {ctx : Context}

/-- The calls on a file have the entries that they have alone. -/
theorem perform_filter (calls : List (Readings × Call)) (r : Runner) (file : String) :
    (perform ctx calls r).1.filter (·.call.file == file) =
      Call.entries ctx ((calls.map Prod.snd).filter (·.file == file)) (r.pageOf file) := by
  induction calls generalizing r with
  | nil => rfl
  | cons c calls ih =>
    obtain ⟨clock, c⟩ := c
    rw [perform, List.map_cons]
    by_cases hfile : c.file = file
    · have hpage := pageOf_answer ctx clock c r file
      rw [if_pos hfile] at hpage
      have hentry : (r.entry ctx clock c).call.file = file := hfile
      simp only [List.filter_cons, hentry, hfile, beq_self_eq_true, if_true]
      rw [ih, hpage, Call.entries, entry, answer_fst, hfile]
    · have hpage := pageOf_answer ctx clock c r file
      rw [if_neg hfile] at hpage
      have hentry : ¬(r.entry ctx clock c).call.file = file := hfile
      simp only [List.filter_cons, hentry, hfile, beq_iff_eq, if_false]
      rw [ih, hpage]

theorem perform_new_filter (calls : List (Readings × Call)) (progress : Progress)
    (logsDir file : String) :
    (perform ctx calls (new progress logsDir)).1.filter (·.call.file == file) =
      Call.entries ctx ((calls.map Prod.snd).filter (·.file == file)) (.empty file) := by
  rw [perform_filter, pageOf_new]

/-! ## Pages alone -/

/-- What comes out for a page that is worked on alone. -/
def pageAlone (ctx : Context) (page : Markdown.Page) : Except DuplicateId PageOutput :=
  ((new (.new 0 false) "").processPage Host.still ctx page).1

variable {σ : Type} {host : Host (StateM σ)} {take : Markdown.Page → StateM σ Markdown.Page}

/-- Pages of different files come out as each does alone. -/
theorem processPages_alone (h : host.Signal take fun _ => False) {pages : List Markdown.Page}
    (hpaths : pages.Pairwise fun p q => p.path ≠ q.path) {r : Runner}
    (hempty : ∀ page ∈ pages, r.pageOf page.path = .empty page.path) (w : σ) :
    (r.processPages host ctx (pages.map take) w).1.1 = pages.mapM (pageAlone ctx) := by
  induction pages generalizing r w with
  | nil => rfl
  | cons page pages ih =>
    rw [List.pairwise_cons] at hpaths
    rw [List.forall_mem_cons] at hempty
    rw [List.map_cons, processPages_cons, List.mapM_cons]
    dsimp only
    have hgoes : ¬(host.stopAsked r (take page w).2).1 = true := h.asked r _
    rw [if_neg hgoes, h.page]
    have hstep := processPage_shortened (s := new (.new 0 false) "") h ctx page
      (hempty.1.trans (pageOf_new _ _ _).symm) (host.stopAsked r (take page w).2).2
    have hothers := (processPage_others host ctx page r).from (host.stopAsked r (take page w).2).2
    generalize r.processPage host ctx page _ = out at hstep hothers ⊢
    obtain ⟨⟨outcome, r'⟩, v⟩ := out
    obtain rfl : outcome = pageAlone ctx page := (hstep.resolve_right fun hraised => hraised.1).1
    cases pageAlone ctx page with
    | error e => rfl
    | ok output =>
      have hempty' : ∀ p ∈ pages, r'.pageOf p.path = .empty p.path := fun p hp =>
        (hothers p.path (hpaths.1 p hp).symm).trans (hempty.2 p hp)
      have hrest := ih hpaths.2 hempty' v
      dsimp only
      rw [hrest]
      rfl

/-- The output of a page alone, an empty one if it fails. -/
def outputAlone (ctx : Context) (page : Markdown.Page) : PageOutput :=
  match pageAlone ctx page with
  | .ok output => output
  | .error _ => ⟨page.path, [], []⟩

theorem mapM_pageAlone (ctx : Context) (pages : List Markdown.Page) :
    (∀ page ∈ pages, ∃ output, pageAlone ctx page = .ok output) ∧
        pages.mapM (pageAlone ctx) = .ok (pages.map (outputAlone ctx)) ∨
      (∃ page ∈ pages, ∃ e, pageAlone ctx page = .error e) ∧
        ∃ e, pages.mapM (pageAlone ctx) = .error e := by
  by_cases hall : ∀ page ∈ pages, ∃ output, pageAlone ctx page = .ok output
  · refine .inl ⟨hall, mapM_ok fun page hpage => ?_⟩
    obtain ⟨output, hok⟩ := hall page hpage
    rw [outputAlone, hok]
  · push Not at hall
    obtain ⟨page, hpage, hfails⟩ := hall
    cases he : pageAlone ctx page with
    | ok output => exact absurd he (hfails output)
    | error e => exact .inr ⟨⟨page, hpage, e, he⟩, mapM_error hpage he⟩

/-- Pages of different files in another order come out in that order, or a page
fails in both. -/
theorem run_perm (h : host.Signal take fun _ => False) {pages pages' : List Markdown.Page}
    (hpages : pages.Perm pages') (hpaths : pages.Pairwise fun p q => p.path ≠ q.path)
    (progress : Progress) (logsDir : String) (w w' : σ) :
    (∃ output : Markdown.Page → PageOutput,
        ((new progress logsDir).run host ctx (pages.map take) w).1.1 = .ok (pages.map output) ∧
          ((new progress logsDir).run host ctx (pages'.map take) w').1.1 =
            .ok (pages'.map output)) ∨
      (∃ e, ((new progress logsDir).run host ctx (pages.map take) w).1.1 = .error e) ∧
        ∃ e, ((new progress logsDir).run host ctx (pages'.map take) w').1.1 = .error e := by
  have hpaths' : pages'.Pairwise fun p q => p.path ≠ q.path :=
    hpages.pairwise hpaths fun hne => hne.symm
  rw [run_fst, run_fst, processPages_alone h hpaths fun page _ => pageOf_new _ _ _,
    processPages_alone h hpaths' fun page _ => pageOf_new _ _ _]
  rcases mapM_pageAlone ctx pages with ⟨hall, hok⟩ | ⟨⟨page, hpage, e, he⟩, hfails⟩
  · have hall' : ∀ page ∈ pages', pageAlone ctx page = .ok (outputAlone ctx page) := by
      intro page hpage
      obtain ⟨output, he⟩ := hall page (hpages.mem_iff.mpr hpage)
      rw [outputAlone, he]
    exact .inl ⟨outputAlone ctx, hok, mapM_ok hall'⟩
  · exact .inr ⟨hfails, mapM_error (hpages.mem_iff.mp hpage) he⟩

/-! ## Calls in other orders -/

/-- Among all calls, those on a file have the entries that they have alone. -/
theorem perform_alone (ctx : Context) (progress : Progress) (logsDir : String) {file : String}
    {calls alone : List (Readings × Call)}
    (h : alone.map Prod.snd = (calls.map Prod.snd).filter (·.file == file)) :
    (perform ctx calls (new progress logsDir)).1.filter (·.call.file == file) =
      (perform ctx alone (new progress logsDir)).1 := by
  have honly : (perform ctx alone (new progress logsDir)).1.filter (·.call.file == file) =
      (perform ctx alone (new progress logsDir)).1 := by
    refine List.filter_eq_self.mpr fun e he => ?_
    have hcall : e.call ∈ alone.map Prod.snd := by
      rw [← perform_calls ctx alone (new progress logsDir)]
      exact List.mem_map_of_mem he
    rw [h] at hcall
    exact (List.mem_filter.mp hcall).2
  rw [← honly, perform_new_filter, perform_new_filter, h, List.filter_filter]
  simp only [Bool.and_self]

/-- Two orders of calls that agree on every file come to the same. Every call
answers what it answers when the calls on its file are made alone, and the
counters are the same but for the order of the failures. So is a batch over the
same pages in another order: every page has the same output, or both orders
fail. -/
theorem perform_interleaved (ctx : Context) {calls calls' : List (Readings × Call)}
    (hcalls : ∀ file, (calls.map Prod.snd).filter (·.file == file) =
      (calls'.map Prod.snd).filter (·.file == file))
    {host : Host (StateM σ)} {take : Markdown.Page → StateM σ Markdown.Page}
    (hquiet : host.Signal take fun _ => False) {pages pages' : List Markdown.Page}
    (hpages : pages.Perm pages') (hpaths : pages.Pairwise fun p q => p.path ≠ q.path)
    (progress : Progress) (logsDir : String) (w w' : σ) :
    let start := new progress logsDir
    let out := perform ctx calls start
    let out' := perform ctx calls' start
    (∀ file alone, alone.map Prod.snd = (calls.map Prod.snd).filter (·.file == file) →
        out.1.filter (·.call.file == file) = (perform ctx alone start).1 ∧
          out'.1.filter (·.call.file == file) = (perform ctx alone start).1) ∧
      out.2.metrics.processed = out'.2.metrics.processed ∧
      (∀ file, file ∈ out.2.metrics.files ↔ file ∈ out'.2.metrics.files) ∧
      (∀ t : String, out.2.metrics.terms[t]? = out'.2.metrics.terms[t]?) ∧
      out.2.metrics.errors.Perm out'.2.metrics.errors ∧
      ((∃ output : Markdown.Page → PageOutput,
          (start.run host ctx (pages.map take) w).1.1 = .ok (pages.map output) ∧
            (start.run host ctx (pages'.map take) w').1.1 = .ok (pages'.map output)) ∨
        (∃ e, (start.run host ctx (pages.map take) w).1.1 = .error e) ∧
          ∃ e, (start.run host ctx (pages'.map take) w').1.1 = .error e) := by
  intro start out out'
  have htells : ∀ cs, (perform ctx cs start).2.metrics.Tells ctx (perform ctx cs start).1 := by
    intro cs
    have h := perform_tells cs (r := start) rfl (Metrics.empty_tells ctx)
    rw [List.nil_append] at h
    exact h.2
  have hfiles : ∀ file, out.1.filter (·.call.file == file) = out'.1.filter (·.call.file == file) := by
    intro file
    rw [perform_new_filter, perform_new_filter, hcalls]
  -- the order of the log goes no further: all counters are about its entries in any order
  have hperm : out.1.Perm out'.1 := perm_of_filter_key (·.call.file) hfiles
  have hcounts := (htells calls).counts.of_perm (htells calls').counts (hperm.flatMap_right _)
  refine ⟨?_, hcounts.1, ?_, hcounts.2, ?_, run_perm hquiet hpages hpaths progress logsDir w w'⟩
  · intro file alone halone
    have hsame := perform_alone ctx progress logsDir halone
    exact ⟨hsame, (hfiles file).symm.trans hsame⟩
  · intro file
    rw [(htells calls).files, (htells calls').files]
    exact exists_congr fun e => and_congr_left fun _ => hperm.mem_iff
  · rw [(htells calls).errors, (htells calls').errors]
    exact hperm.flatMap_right _

/-! ## A failure in the middle -/

/-- Two calls on one page, of which the second fails, and a call on another page
after them. -/
def oneByOne : List (Readings × Call) :=
  [(⟨⟨0⟩, ⟨0⟩⟩, .block "a.md" ⟨"a.md#0", "ts", "x)"⟩),
    (⟨⟨1⟩, ⟨1⟩⟩, .block "a.md" ⟨"a.md#0", "ts", "x)"⟩), (⟨⟨2⟩, ⟨2⟩⟩, .prose "b.md" "DD")]

/-- The same calls, with that on the other page before the one that fails. -/
def inTheMiddle : List (Readings × Call) :=
  [(⟨⟨0⟩, ⟨0⟩⟩, .block "a.md" ⟨"a.md#0", "ts", "x)"⟩), (⟨⟨1⟩, ⟨1⟩⟩, .prose "b.md" "DD"),
    (⟨⟨2⟩, ⟨2⟩⟩, .block "a.md" ⟨"a.md#0", "ts", "x)"⟩)]

theorem oneByOne_filter (file : String) :
    (oneByOne.map Prod.snd).filter (·.file == file) =
      (inTheMiddle.map Prod.snd).filter (·.file == file) := by
  by_cases ha : "a.md" = file
  · subst ha
    decide
  · simp [oneByOne, inTheMiddle, List.filter_cons, Call.file, ha]

/-- The call that fails does so in both orders, and both count the same. -/
theorem perform_interleaved_sample :
    (∀ file, (oneByOne.map Prod.snd).filter (·.file == file) =
        (inTheMiddle.map Prod.snd).filter (·.file == file)) ∧
      quietHost.Signal pure (fun _ => False) ∧ samplePages.Perm samplePages.reverse ∧
      samplePages.Pairwise (fun p q => p.path ≠ q.path) ∧
      let out := perform sampleContext oneByOne (new (.new 0 false) "logs")
      let out' := perform sampleContext inTheMiddle (new (.new 0 false) "logs")
      out.1.map (·.answer.records.length) = [3, 0, 1] ∧
        out'.1.map (·.answer.records.length) = [3, 1, 0] ∧
        out.2.metrics.processed = out'.2.metrics.processed ∧
        out.2.metrics.errors.Perm out'.2.metrics.errors := by
  have hpages : samplePages.Perm samplePages.reverse := samplePages.reverse_perm.symm
  have hpaths : samplePages.Pairwise fun p q => p.path ≠ q.path := by decide
  have hsame := perform_interleaved sampleContext oneByOne_filter quietHost_signal hpages hpaths
    (.new 0 false) "logs" () ()
  exact ⟨oneByOne_filter, quietHost_signal, hpages, hpaths, by decide +kernel, by decide +kernel,
    hsame.2.1, hsame.2.2.2.2.1⟩

end Runner

end HoverTips
