import HoverTips.Proofs.Batch.Worlds

/-! # Batches that are not stopped

What the clock says shows in times and in printed lines, and nowhere else. A batch
on a host that never asks for a stop therefore hands back what it hands back on
the still host, and its counters are the same but for the times. -/

namespace HoverTips

/-! ## Counters without times -/

namespace Metrics

variable {m k : Metrics}

/-- The counters without the times: the tooltips, the files, the terms and the failures. -/
def untimed (m : Metrics) : Metrics := { m with started := none, finished := none }

theorem start_untimed (now : Instant) (m : Metrics) : (m.start now).untimed = m.untimed := rfl

theorem fileSeen_untimed (file : String) (m : Metrics) :
    (m.fileSeen file).untimed = m.untimed.fileSeen file := by
  unfold fileSeen
  split
  · rename_i h
    exact (if_pos h).symm
  · rename_i h
    exact (if_neg h).symm

theorem recordErrors_untimed (errors : List MetricsError) (m : Metrics) :
    (m.recordErrors errors).untimed = m.untimed.recordErrors errors := by
  induction errors generalizing m with
  | nil => rfl
  | cons e errors ih => exact ih _

theorem recordAll_untimed (records : List TooltipRecord) (m : Metrics) :
    (m.recordAll records).untimed = m.untimed.recordAll records := by
  induction records generalizing m with
  | nil => rfl
  | cons x records ih => exact ih _

/-- An entry is counted the same whenever it is counted. -/
theorem note_untimed (ctx : Context) (now later : Instant) (e : Entry)
    (h : m.untimed = k.untimed) : (m.note ctx now e).untimed = (k.note ctx later e).untimed := by
  simp only [note, recordAll_untimed, recordErrors_untimed, fileSeen_untimed, start_untimed, h]

end Metrics

/-- The host never asks for a stop. -/
def Host.NeverStops {m : Type → Type} [Monad m] (host : Host m) : Prop :=
  ∀ r, Returns (host.stopAsked r) (· = false)

namespace Runner

/-- Two runners that are not finalized and that differ in times and in what they have
printed alone. -/
structure Alike (r s : Runner) : Prop where
  pages : r.pages = s.pages
  left : r.finalized = false
  right : s.finalized = false
  logsDir : r.logsDir = s.logsDir
  metrics : r.metrics.untimed = s.metrics.untimed

theorem new_alike (progress other : Progress) (logsDir : String) :
    (new progress logsDir).Alike (new other logsDir) := ⟨rfl, rfl, rfl, rfl, rfl⟩

theorem answer_logsDir (ctx : Context) (clock : Readings) (c : Call) (r : Runner) :
    (r.answer ctx clock c).2.logsDir = r.logsDir := by
  have hstarted : (r.started ctx clock.entered c).logsDir = r.logsDir := by
    unfold started count
    split <;> rfl
  rw [answer_eq]
  unfold settle
  dsimp only
  split
  · exact hstarted
  · rw [tally_eq]
    split <;> exact hstarted

section Alike

variable {r s : Runner} (ctx : Context) (clock other : Readings) (h : r.Alike s)

include h

theorem answer_alike (c : Call) :
    (r.answer ctx clock c).1 = (s.answer ctx other c).1 ∧
      (r.answer ctx clock c).2.Alike (s.answer ctx other c).2 := by
  have hpage : r.pageOf c.file = s.pageOf c.file := pageOf_congr h.pages c.file
  have hanswer : (r.answer ctx clock c).1 = (s.answer ctx other c).1 := by
    rw [answer_fst, answer_fst, hpage]
  have hentry : r.entry ctx clock c = s.entry ctx other c := by
    rw [entry, entry, hanswer, hpage]
  obtain ⟨hleft, hcounted⟩ := answer_open ctx clock c h.left
  obtain ⟨hright, hcounted'⟩ := answer_open ctx other c h.right
  refine ⟨hanswer, ?_, hleft, hright, ?_, ?_⟩
  · rw [answer_pages, answer_pages, h.pages, hpage]
  · rw [answer_logsDir, answer_logsDir, h.logsDir]
  · rw [hcounted, hcounted', hentry]
    exact Metrics.note_untimed ctx _ _ _ h.metrics

theorem processBlock_alike (file : String) (b : Markdown.CodeBlock) :
    (r.processBlock ctx clock file b).1 = (s.processBlock ctx other file b).1 ∧
      (r.processBlock ctx clock file b).2.Alike (s.processBlock ctx other file b).2 := by
  obtain ⟨hanswer, hafter⟩ := answer_alike ctx clock other h (.block file b)
  exact ⟨Answer.block.inj hanswer, hafter⟩

theorem processProse_alike (file text : String) :
    (r.processProse ctx clock file text).1 = (s.processProse ctx other file text).1 ∧
      (r.processProse ctx clock file text).2.Alike (s.processProse ctx other file text).2 := by
  obtain ⟨hanswer, hafter⟩ := answer_alike ctx clock other h (.prose file text)
  exact ⟨Answer.prose.inj hanswer, hafter⟩

end Alike

/-- What comes out is what should come out, with a runner like the one that should. -/
def Matches {α : Type} (ref out : Except DuplicateId α × Runner) : Prop :=
  out.1 = ref.1 ∧ out.2.Alike ref.2

theorem Matches.map {α β : Type} {ref out : Except DuplicateId α × Runner} (h : Matches ref out)
    (f : α → β) : Matches (ref.1.map f, ref.2) (out.1.map f, out.2) :=
  ⟨congrArg (Except.map f) h.1, h.2⟩

section Steady

variable {m : Type → Type} [Monad m] [LawfulMonad m] {host : Host m} {r s : Runner}

theorem processBlocks_steady (hhost : host.NeverStops) (ctx : Context) (file : String)
    (blocks : List Markdown.CodeBlock) (h : r.Alike s) :
    Returns (r.processBlocks host ctx file blocks)
      (Matches (s.processBlocks Host.still ctx file blocks)) := by
  induction blocks generalizing r s with
  | nil => exact .pure ⟨rfl, h⟩
  | cons b blocks ih =>
    rw [processBlocks, still_processBlocks_cons]
    refine (hhost r).bind fun stop hstop => ?_
    rw [hstop, if_neg (by simp)]
    refine (Returns.any (readings host)).bind fun clock _ => ?_
    have hstep := processBlock_alike ctx clock ⟨⟨0⟩, ⟨0⟩⟩ h file b
    generalize r.processBlock ctx clock file b = out at hstep ⊢
    generalize s.processBlock ctx _ file b = ref at hstep ⊢
    obtain ⟨outcome, r'⟩ := out
    obtain ⟨outcome', s'⟩ := ref
    obtain ⟨rfl, hafter⟩ : outcome = outcome' ∧ r'.Alike s' := hstep
    cases outcome with
    | error e => exact .pure ⟨rfl, hafter⟩
    | ok output => exact (ih hafter).bind fun rest hrest => .pure (hrest.map (output :: ·))

theorem processPage_steady (hhost : host.NeverStops) (ctx : Context) (page : Markdown.Page)
    (h : r.Alike s) :
    Returns (r.processPage host ctx page) (Matches (s.processPage Host.still ctx page)) := by
  rw [processPage, still_processPage]
  refine (Returns.any (readings host)).bind fun clock _ => ?_
  have hstep := processProse_alike ctx clock ⟨⟨0⟩, ⟨0⟩⟩ h page.path page.prose
  generalize r.processProse ctx clock page.path page.prose = out at hstep ⊢
  generalize s.processProse ctx _ page.path page.prose = ref at hstep ⊢
  obtain ⟨outcome, r'⟩ := out
  obtain ⟨outcome', s'⟩ := ref
  obtain ⟨rfl, hafter⟩ : outcome = outcome' ∧ r'.Alike s' := hstep
  cases outcome with
  | error e => exact .pure ⟨rfl, hafter⟩
  | ok tooltips =>
    exact (processBlocks_steady hhost ctx page.path page.blocks hafter).bind fun rest hrest =>
      .pure (hrest.map fun blocks => (⟨page.path, tooltips, blocks⟩ : PageOutput))

theorem processPages_steady (hhost : host.NeverStops) (ctx : Context) (pages : List Markdown.Page)
    (h : r.Alike s) :
    Returns (r.processPages host ctx (pages.map pure))
      (Matches (s.processPages Host.still ctx pages)) := by
  induction pages generalizing r s with
  | nil => exact .pure ⟨rfl, h⟩
  | cons page pages ih =>
    rw [List.map_cons, processPages, pure_bind, still_processPages_cons]
    refine (hhost r).bind fun stop hstop => ?_
    rw [hstop, if_neg (by simp)]
    refine (processPage_steady hhost ctx page h).bind fun out hstep => ?_
    generalize s.processPage Host.still ctx page = ref at hstep ⊢
    obtain ⟨outcome, r'⟩ := out
    obtain ⟨outcome', s'⟩ := ref
    obtain ⟨rfl, hafter⟩ : outcome = outcome' ∧ r'.Alike s' := hstep
    cases outcome with
    | error e => exact .pure ⟨rfl, hafter⟩
    | ok output => exact (ih hafter).bind fun rest hrest => .pure (hrest.map (output :: ·))

/-- To finalize a runner the first time is to close it. -/
theorem finalize_closes (host : Host m) (h : r.finalized = false) :
    Returns (r.finalize host) fun out =>
      out.2.finalized = true ∧ out.2.metrics.untimed = r.metrics.untimed := by
  rw [finalize, if_neg (by simp [h])]
  refine (Returns.any host.now).bind fun now _ => ?_
  refine (Returns.any _).bind fun saved _ => ?_
  split <;> exact .pure ⟨rfl, rfl⟩

/-- A batch that is not stopped and goes well hands back what it hands back on the
still host, and has counted the same. -/
theorem run_steady (hhost : host.NeverStops) (ctx : Context) (pages : List Markdown.Page)
    (h : r.Alike s) :
    Returns (r.run host ctx (pages.map pure)) fun out =>
      ∀ outputs, out.1 = .ok outputs →
        (s.processPages Host.still ctx pages).1 = .ok outputs ∧ out.2.finalized = true ∧
        out.2.metrics.untimed = (s.processPages Host.still ctx pages).2.metrics.untimed := by
  rw [run]
  refine (processPages_steady hhost ctx pages h).bind fun out hout => ?_
  obtain ⟨outcome, after⟩ := out
  obtain ⟨hsame, halike⟩ := hout
  cases outcome with
  | error e =>
    refine .pure ?_
    intro outputs hok
    cases hok
  | ok outputs =>
    refine (finalize_closes host halike.left).bind fun ended hended => .pure ?_
    intro others hothers
    cases hothers
    exact ⟨hsame.symm, hended.1, hended.2.trans halike.metrics⟩

end Steady

/-! ## What the pages leave -/

/-- The output for a page goes under its path. -/
theorem still_processPage_page {ctx : Context} {page : Markdown.Page} {r s : Runner}
    {output : PageOutput} (h : r.processPage Host.still ctx page = (.ok output, s)) :
    output.page = page.path := by
  rw [still_processPage] at h
  split at h
  · cases h
  · rename_i tooltips after _
    dsimp only at h
    generalize after.processBlocks Host.still ctx page.path page.blocks = later at h
    obtain ⟨blocks, last⟩ := later
    cases blocks with
    | error e => cases h
    | ok blocks =>
      cases h
      rfl

theorem still_processPages_paths {ctx : Context} {pages : List Markdown.Page} {r : Runner}
    {outputs : List PageOutput} (h : (r.processPages Host.still ctx pages).1 = .ok outputs) :
    outputs.map (·.page) = pages.map (·.path) := by
  induction pages generalizing r outputs with
  | nil =>
    cases h
    rfl
  | cons page pages ih =>
    rw [still_processPages_cons] at h
    split at h
    · cases h
    · rename_i output after hpage
      dsimp only at h
      cases hrest : (after.processPages Host.still ctx pages).1 with
      | error e =>
        rw [hrest] at h
        cases h
      | ok rest =>
        rw [hrest] at h
        cases h
        rw [List.map_cons, List.map_cons, still_processPage_page hpage, ih hrest]

theorem Leads.logsDir {ctx : Context} {log : List Entry} {r s : Runner} (h : Leads ctx r log s) :
    s.logsDir = r.logsDir := by
  obtain ⟨calls, h⟩ := h
  induction calls generalizing r log with
  | nil =>
    cases h
    rfl
  | cons c calls ih =>
    rw [perform, Prod.mk.injEq] at h
    exact (ih (Prod.ext rfl h.2)).trans (answer_logsDir ctx c.1 c.2 r)

theorem still_processPages_logsDir (ctx : Context) (pages : List Markdown.Page) (r : Runner) :
    (r.processPages Host.still ctx pages).2.logsDir = r.logsDir := by
  have hlogged := returns_id_iff.mp (logPages_logged Host.still ctx pages r)
  have hpages : (logPages Host.still ctx pages r).1 = r.processPages Host.still ctx pages :=
    fst_logPages Host.still ctx pages r
  rw [← hpages]
  exact hlogged.leads.logsDir

/-- Only files of the pages are counted. -/
theorem still_processPages_files (ctx : Context) (pages : List Markdown.Page) {r : Runner}
    {log : List Entry} (hopen : r.finalized = false) (h : r.metrics.Tells ctx log) :
    ∃ more, (r.processPages Host.still ctx pages).2.metrics.Tells ctx (log ++ more) ∧
      ∀ e ∈ more, e.call.file ∈ pages.map (·.path) := by
  induction pages generalizing r log with
  | nil => exact ⟨[], by rw [List.append_nil]; exact h, by simp⟩
  | cons page pages ih =>
    have hlogged := returns_id_iff.mp (logPage_logged Host.still ctx page r)
    obtain ⟨hafter, htells⟩ := hlogged.leads.tells hopen h
    have hfiles := hlogged.files
    have hpage : (logPage Host.still ctx page r).1 = r.processPage Host.still ctx page :=
      fst_logPage Host.still ctx page r
    rw [hpage] at hafter htells
    rw [still_processPages_cons]
    generalize (logPage Host.still ctx page r).2 = first at hfiles htells
    generalize r.processPage Host.still ctx page = out at hafter htells ⊢
    obtain ⟨outcome, after⟩ := out
    cases outcome with
    | error e => exact ⟨first, htells, fun e he => by simp [hfiles e he]⟩
    | ok output =>
      obtain ⟨more, hmore, hlater⟩ := ih hafter htells
      refine ⟨first ++ more, by rw [← List.append_assoc]; exact hmore, ?_⟩
      intro e he
      rcases List.mem_append.mp he with he | he
      · simp [hfiles e he]
      · exact List.mem_cons_of_mem _ (hlater e he)

end Runner

end HoverTips
