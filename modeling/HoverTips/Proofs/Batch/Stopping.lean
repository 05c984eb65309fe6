import HoverTips.Proofs.Batch.Unique
import HoverTips.Proofs.Batch.Worlds

/-! # Stopping early

A stop signal may be raised at any time while a batch runs, by whatever happens
in the world, and stays raised. The batch sees it before a page or before a
block. What it then hands back is the front part of what it would have handed
back: whole pages, and one last page that may lack some of its last blocks. -/

namespace HoverTips

variable {σ : Type}

/-- A stop signal of the world: it stays raised when a page is taken, the host
asks for a stop once it was raised, and it is raised when the host has asked.
Pages are taken as they are. -/
structure Host.Signal (host : Host (StateM σ)) (take : Markdown.Page → StateM σ Markdown.Page)
    (raised : σ → Prop) : Prop where
  page : ∀ page w, (take page w).1 = page
  taken : ∀ page w, raised w → raised (take page w).2
  heeded : ∀ r w, raised w → (host.stopAsked r w).1 = true
  asked : ∀ r w, (host.stopAsked r w).1 = true → raised (host.stopAsked r w).2

/-- The page with some of its last blocks left out. -/
structure PageOutput.CutOf (cut full : PageOutput) : Prop where
  page : cut.page = full.page
  tooltips : cut.tooltips = full.tooltips
  blocks : cut.blocks <+: full.blocks

theorem PageOutput.CutOf.refl (p : PageOutput) : p.CutOf p := ⟨rfl, rfl, List.prefix_rfl⟩

/-- Whole pages in order, and then one that may be cut. -/
def CutShort (cut full : List PageOutput) : Prop :=
  cut = [] ∨ ∃ front last page rest,
    cut = front ++ [last] ∧ full = front ++ page :: rest ∧ last.CutOf page

theorem CutShort.refl (pages : List PageOutput) : CutShort pages pages := by
  rcases List.eq_nil_or_concat pages with rfl | ⟨front, last, rfl⟩
  · exact .inl rfl
  · exact .inr ⟨front, last, last, [], by simp, by simp, .refl last⟩

theorem CutShort.cons {cut full : List PageOutput} (h : CutShort cut full) (p : PageOutput) :
    CutShort (p :: cut) (p :: full) := by
  rcases h with rfl | ⟨front, last, page, rest, rfl, rfl, hlast⟩
  · exact .inr ⟨[], p, p, full, rfl, rfl, .refl p⟩
  · exact .inr ⟨p :: front, last, page, rest, rfl, rfl, hlast⟩

theorem CutShort.length_le {cut full : List PageOutput} (h : CutShort cut full) :
    cut.length ≤ full.length := by
  rcases h with rfl | ⟨front, last, page, rest, rfl, rfl, _⟩
  · exact Nat.zero_le _
  · simp

/-- What comes out is what should come out, and the runners agree, or the signal
is raised and a part of it comes out. -/
def Shortened {α : Type} (raised : σ → Prop) (agree : Runner → Runner → Prop)
    (part : α → α → Prop) (out : (Except DuplicateId α × Runner) × σ)
    (ref : Except DuplicateId α × Runner) : Prop :=
  (out.1.1 = ref.1 ∧ agree out.1.2 ref.2) ∨
    (raised out.2 ∧ ∃ a, out.1.1 = .ok a ∧ ∀ full, ref.1 = .ok full → part a full)

theorem Shortened.map {α β : Type} {raised : σ → Prop} {agree : Runner → Runner → Prop}
    {part : α → α → Prop} {whole : β → β → Prop} {out : (Except DuplicateId α × Runner) × σ}
    {ref : Except DuplicateId α × Runner} {f : α → β} (h : Shortened raised agree part out ref)
    (hf : ∀ a b, part a b → whole (f a) (f b)) :
    Shortened raised agree whole ((out.1.1.map f, out.1.2), out.2) (ref.1.map f, ref.2) := by
  rcases h with ⟨hsame, hagree⟩ | ⟨hraised, a, ha, hpart⟩
  · exact .inl ⟨congrArg (Except.map f) hsame, hagree⟩
  · refine .inr ⟨hraised, f a, by simp [ha, Except.map], fun full hfull => ?_⟩
    obtain ⟨outcome, after⟩ := ref
    cases outcome with
    | error e => cases hfull
    | ok b =>
      cases hfull
      exact hf a b (hpart b rfl)

namespace Runner

/-! ## One page -/

section Page

variable (ctx : Context) (clock other : Readings) {file : String} {r s : Runner}

/-- What a call answers, and what it leaves on its page, depends on that page
alone. -/
theorem answer_congr (c : Call) (h : r.pageOf c.file = s.pageOf c.file) :
    (r.answer ctx clock c).1 = (s.answer ctx other c).1 ∧
      (r.answer ctx clock c).2.pageOf c.file = (s.answer ctx other c).2.pageOf c.file := by
  rw [answer_fst, answer_fst, pageOf_answer, pageOf_answer, h]
  exact ⟨rfl, rfl⟩

theorem processBlock_congr (b : Markdown.CodeBlock) (h : r.pageOf file = s.pageOf file) :
    (r.processBlock ctx clock file b).1 = (s.processBlock ctx other file b).1 ∧
      (r.processBlock ctx clock file b).2.pageOf file =
        (s.processBlock ctx other file b).2.pageOf file := by
  obtain ⟨hanswer, hpage⟩ := answer_congr ctx clock other (.block file b) h
  exact ⟨Answer.block.inj hanswer, hpage⟩

theorem processProse_congr (text : String) (h : r.pageOf file = s.pageOf file) :
    (r.processProse ctx clock file text).1 = (s.processProse ctx other file text).1 ∧
      (r.processProse ctx clock file text).2.pageOf file =
        (s.processProse ctx other file text).2.pageOf file := by
  obtain ⟨hanswer, hpage⟩ := answer_congr ctx clock other (.prose file text) h
  exact ⟨Answer.prose.inj hanswer, hpage⟩

end Page

variable {host : Host (StateM σ)} {take : Markdown.Page → StateM σ Markdown.Page}
  {raised : σ → Prop} {ctx : Context} {r s : Runner}

theorem processBlocks_shortened (h : host.Signal take raised) (file : String)
    (blocks : List Markdown.CodeBlock) (hpage : r.pageOf file = s.pageOf file) (w : σ) :
    Shortened raised (fun r s => r.pageOf file = s.pageOf file) (· <+: ·)
      (r.processBlocks host ctx file blocks w) (s.processBlocks Host.still ctx file blocks) := by
  induction blocks generalizing r s w with
  | nil => exact .inl ⟨rfl, hpage⟩
  | cons b blocks ih =>
    rw [processBlocks_cons, still_processBlocks_cons]
    dsimp only
    by_cases hasked : (host.stopAsked r w).1 = true
    · rw [if_pos hasked]
      exact .inr ⟨h.asked r w hasked, [], rfl, fun full _ => List.nil_prefix⟩
    rw [if_neg hasked]
    have hstep := processBlock_congr ctx (readings host (host.stopAsked r w).2).1 ⟨⟨0⟩, ⟨0⟩⟩ b
      hpage
    generalize r.processBlock ctx _ file b = out at hstep ⊢
    generalize s.processBlock ctx _ file b = ref at hstep ⊢
    obtain ⟨outcome, r'⟩ := out
    obtain ⟨outcome', s'⟩ := ref
    obtain ⟨rfl, hafter⟩ : outcome = outcome' ∧ r'.pageOf file = s'.pageOf file := hstep
    cases outcome with
    | error e => exact .inl ⟨rfl, hafter⟩
    | ok output => exact (ih hafter _).map fun cut full hcut => List.cons_prefix_cons.mpr ⟨rfl, hcut⟩

theorem processPage_shortened (h : host.Signal take raised) (ctx : Context) (page : Markdown.Page)
    (hpage : r.pageOf page.path = s.pageOf page.path) (w : σ) :
    Shortened raised (fun r s => r.pageOf page.path = s.pageOf page.path) PageOutput.CutOf
      (r.processPage host ctx page w) (s.processPage Host.still ctx page) := by
  rw [processPage_eq, still_processPage]
  dsimp only
  have hstep := processProse_congr ctx (readings host w).1 ⟨⟨0⟩, ⟨0⟩⟩ page.prose hpage
  generalize r.processProse ctx _ page.path page.prose = out at hstep ⊢
  generalize s.processProse ctx _ page.path page.prose = ref at hstep ⊢
  obtain ⟨outcome, r'⟩ := out
  obtain ⟨outcome', s'⟩ := ref
  obtain ⟨rfl, hafter⟩ :
    outcome = outcome' ∧ r'.pageOf page.path = s'.pageOf page.path := hstep
  cases outcome with
  | error e => exact .inl ⟨rfl, hafter⟩
  | ok tooltips =>
    exact (processBlocks_shortened h page.path page.blocks hafter _).map fun cut full hcut =>
      ⟨rfl, rfl, hcut⟩

/-- The work on a page leaves the ids of other pages as they are. -/
theorem processPage_others {m : Type → Type} [Monad m] [LawfulMonad m] (host : Host m)
    (ctx : Context) (page : Markdown.Page) (r : Runner) :
    Returns (processPage host ctx page r) fun out =>
      ∀ file, file ≠ page.path → out.2.pageOf file = r.pageOf file := by
  rw [← fst_logPage]
  refine Returns.map ((logPage_logged host ctx page r).imp fun out hout file hfile => ?_)
  exact hout.leads.pageOf fun e he hf => hfile (hf.symm.trans (hout.files e he))

/-! ## Pages in order -/

/-- Once the signal is raised no page is worked on. -/
theorem processPages_raised (h : host.Signal take raised) (ctx : Context) (r : Runner)
    (pages : List Markdown.Page) (w : σ)
    (hraised : raised w) :
    ∃ v, r.processPages host ctx (pages.map take) w = ((.ok [], r), v) ∧ raised v := by
  cases pages with
  | nil => exact ⟨w, rfl, hraised⟩
  | cons page pages =>
    have hasked := h.heeded r _ (h.taken page w hraised)
    refine ⟨_, ?_, h.asked r _ hasked⟩
    rw [List.map_cons, processPages_cons]
    exact if_pos hasked

theorem processPages_shortened (h : host.Signal take raised) (ctx : Context)
    (pages : List Markdown.Page)
    (hagree : ∀ file, r.pageOf file = s.pageOf file) (w : σ) :
    Shortened raised (fun r s => ∀ file, r.pageOf file = s.pageOf file) CutShort
      (r.processPages host ctx (pages.map take) w) (s.processPages Host.still ctx pages) := by
  induction pages generalizing r s w with
  | nil => exact .inl ⟨rfl, hagree⟩
  | cons page pages ih =>
    rw [List.map_cons, processPages_cons, still_processPages_cons]
    dsimp only
    rw [h.page]
    by_cases hasked : (host.stopAsked r (take page w).2).1 = true
    · rw [if_pos hasked]
      exact .inr ⟨h.asked r _ hasked, [], rfl, fun full _ => .inl rfl⟩
    rw [if_neg hasked]
    have hstep := processPage_shortened h ctx page (hagree page.path)
      (host.stopAsked r (take page w).2).2
    have hothers := (processPage_others host ctx page r).from (host.stopAsked r (take page w).2).2
    have hothers' := returns_id_iff.mp (processPage_others Host.still ctx page s)
    generalize r.processPage host ctx page _ = out at hstep hothers ⊢
    generalize s.processPage Host.still ctx page = ref at hstep hothers' ⊢
    obtain ⟨⟨outcome, r'⟩, v⟩ := out
    obtain ⟨outcome', s'⟩ := ref
    rcases hstep with ⟨hsame, hafter⟩ | ⟨hraised, output, hok, hpart⟩
    · -- the page is whole, and the runners agree on all pages after it
      obtain rfl : outcome = outcome' := hsame
      have hagree' : ∀ file, r'.pageOf file = s'.pageOf file := by
        intro file
        by_cases hfile : file = page.path
        · rw [hfile]
          exact hafter
        · exact (hothers file hfile).trans ((hagree file).trans (hothers' file hfile).symm)
      cases outcome with
      | error e => exact .inl ⟨rfl, hagree'⟩
      | ok output => exact (ih hagree' v).map fun cut full hcut => hcut.cons output
    · -- the page is cut, and no page is taken after it
      obtain rfl : outcome = .ok output := hok
      obtain ⟨u, hrest, hu⟩ := processPages_raised h ctx r' pages v hraised
      dsimp only
      rw [hrest]
      refine .inr ⟨hu, [output], rfl, fun full hfull => ?_⟩
      cases outcome' with
      | error e => cases hfull
      | ok page' =>
        dsimp only at hfull
        generalize s'.processPages Host.still ctx pages = later at hfull
        obtain ⟨rest, last⟩ := later
        cases rest with
        | error e => cases hfull
        | ok rest =>
          cases hfull
          exact .inr ⟨[], output, page', rest, rfl, rfl, hpart page' rfl⟩

/-! ## The whole batch -/

/-- A batch that goes well has counted the tooltips of the pages that it hands
back. -/
theorem processPages_counts {m : Type → Type} [Monad m] [LawfulMonad m] (host : Host m)
    (ctx : Context) (progress : Progress) (logsDir : String) (pages : List (m Markdown.Page)) :
    Returns (processPages host ctx pages (new progress logsDir)) fun out =>
      out.2.finalized = false ∧ ∀ outputs, out.1 = .ok outputs →
        out.2.metrics.Counts (outputs.flatMap PageOutput.records) := by
  rw [← fst_logPages]
  refine Returns.map ((logPages_logged host ctx pages _).imp fun out hout => ?_)
  obtain ⟨hopen, htells⟩ := hout.leads.tells rfl (Metrics.empty_tells ctx)
  rw [List.nil_append] at htells
  refine ⟨hopen, fun outputs hok => ?_⟩
  rw [← hout.records outputs hok]
  exact htells.counts

/-- Whenever the stop signal is raised while a batch runs that would go well
without it, the batch goes well and hands back whole pages of the same output,
and one last page with its prose that may lack its last blocks. The runner is
finalized and has counted just the tooltips that were handed back. -/
theorem run_cutShort {σ τ : Type} {quiet : Host (StateM σ)}
    {takeQuiet : Markdown.Page → StateM σ Markdown.Page}
    (hquiet : quiet.Signal takeQuiet fun _ => False) {host : Host (StateM τ)}
    {take : Markdown.Page → StateM τ Markdown.Page} {raised : τ → Prop}
    (hsignal : host.Signal take raised) (ctx : Context) (progress : Progress) (logsDir : String)
    (pages : List Markdown.Page) (w : σ) (v : τ) {full : List PageOutput}
    (hfull : ((new progress logsDir).run quiet ctx (pages.map takeQuiet) w).1.1 = .ok full) :
    ∃ cut r u, (new progress logsDir).run host ctx (pages.map take) v = ((.ok cut, r), u) ∧
      cut.length ≤ full.length ∧ CutShort cut full ∧ r.finalized = true ∧
      r.metrics.Counts (cut.flatMap PageOutput.records) := by
  have hagree : ∀ file, (new progress logsDir).pageOf file = (new progress logsDir).pageOf file :=
    fun _ => rfl
  -- both runs are compared with a third on the still host, which shares no world with them
  have hstill : ((new progress logsDir).processPages Host.still ctx pages).1 = .ok full := by
    have hout := processPages_shortened hquiet ctx pages hagree w
    rw [run_eq] at hfull
    generalize (new progress logsDir).processPages quiet ctx (pages.map takeQuiet) w = out
      at hout hfull
    obtain ⟨⟨outcome, after⟩, u⟩ := out
    rcases hout with ⟨hsame, _⟩ | ⟨hraised, _⟩
    · cases outcome with
      | error e => cases hfull
      | ok outputs => exact hsame.symm.trans hfull
    · exact hraised.elim
  have hout := processPages_shortened hsignal ctx pages hagree v
  have hcounts := (processPages_counts host ctx progress logsDir (pages.map take)).from v
  obtain ⟨cut, hcut, hshort⟩ : ∃ cut,
      ((new progress logsDir).processPages host ctx (pages.map take) v).1.1 = .ok cut ∧
        CutShort cut full := by
    rcases hout with ⟨hsame, _⟩ | ⟨_, cut, hok, hpart⟩
    · exact ⟨full, hsame.trans hstill, .refl full⟩
    · exact ⟨cut, hok, hpart full hstill⟩
  rw [run_eq]
  generalize (new progress logsDir).processPages host ctx (pages.map take) v = out
    at hcut hcounts ⊢
  obtain ⟨⟨outcome, after⟩, u⟩ := out
  obtain rfl : outcome = .ok cut := hcut
  obtain ⟨hopen, hcounts⟩ := hcounts
  have hclosed := finalize_open host hopen u
  refine ⟨cut, _, _, rfl, hshort.length_le, hshort, ?_, ?_⟩
  · rw [hclosed]
    rfl
  · rw [hclosed]
    have hpages := hcounts cut rfl
    exact ⟨hpages.processed, hpages.term⟩

/-! ## A signal at the third question -/

/-- A host that is never asked to stop. -/
def quietHost : Host (StateM Unit) := ⟨pure ⟨0⟩, fun _ => pure false, fun _ _ => pure true⟩

theorem quietHost_signal : quietHost.Signal pure fun _ => False where
  page _ _ := rfl
  taken _ _ := False.elim
  heeded _ _ := False.elim
  asked _ _ hasked := by cases hasked

/-- A host that counts how often it was asked, and wants a stop from the third
time on. -/
def impatientHost : Host (StateM Nat) :=
  ⟨pure ⟨0⟩, fun _ n => (decide (2 ≤ n), n + 1), fun _ _ => pure true⟩

theorem impatientHost_signal : impatientHost.Signal pure (2 ≤ ·) where
  page _ _ := rfl
  taken _ _ h := h
  heeded _ _ h := decide_eq_true h
  asked _ n hasked := by
    have hn : 2 ≤ n := of_decide_eq_true hasked
    exact Nat.le_succ_of_le hn

/-- A page with two blocks, and a page with prose alone. -/
def samplePages : List Markdown.Page :=
  [⟨"a.md", [⟨"a.md#0", "ts", "x)"⟩, ⟨"a.md#1", "ts", "x)"⟩], "DD"⟩, ⟨"b.md", [], "DD"⟩]

/-- The batch stops before the second block of its first page. -/
theorem run_cutShort_sample :
    quietHost.Signal pure (fun _ => False) ∧ impatientHost.Signal pure (2 ≤ ·) ∧
      ∃ full, ((new (.new 0 false) "logs").run quietHost sampleContext (samplePages.map pure) ()).1.1 =
          .ok full ∧
        ∃ cut r u, (new (.new 0 false) "logs").run impatientHost sampleContext
            (samplePages.map pure) 0 = ((.ok cut, r), u) ∧
          cut.map (·.blocks.length) = [1] ∧ full.map (·.blocks.length) = [2, 0] ∧
          CutShort cut full ∧ r.metrics.Counts (cut.flatMap PageOutput.records) := by
  have hsizes : (((new (.new 0 false) "logs").run quietHost sampleContext
      (samplePages.map pure) ()).1.1.toOption.map (·.map (·.blocks.length))) = some [2, 0] := by
    decide +kernel
  have hcutSizes : (((new (.new 0 false) "logs").run impatientHost sampleContext
      (samplePages.map pure) 0).1.1.toOption.map (·.map (·.blocks.length))) = some [1] := by
    decide +kernel
  refine ⟨quietHost_signal, impatientHost_signal, ?_⟩
  cases hfull : ((new (.new 0 false) "logs").run quietHost sampleContext
      (samplePages.map pure) ()).1.1 with
  | error e =>
    rw [hfull] at hsizes
    cases hsizes
  | ok full =>
    obtain ⟨cut, r, u, hrun, _, hshort, _, hcounts⟩ := run_cutShort quietHost_signal
      impatientHost_signal sampleContext (.new 0 false) "logs" samplePages () 0 hfull
    rw [hfull] at hsizes
    rw [hrun] at hcutSizes
    exact ⟨full, rfl, cut, r, u, hrun, Option.some.inj hcutSizes, Option.some.inj hsizes, hshort,
      hcounts⟩

end Runner

end HoverTips
