import HoverTips.Batch.Run
import HoverTips.Proofs.Batch.Effects
import HoverTips.Proofs.Batch.Histogram

/-! # The log of a batch

Processing a page makes one call for its prose and then one for each block. Here
the same is done with a log of the calls: what comes out beside the log is what
comes out without it, and the log leads from the runner before to the runner
after. So whatever holds of calls in order holds of pages and of batches. -/

namespace HoverTips

/-- A host without effects: its clock stands still and nothing is asked of it. -/
def Host.still : Host Id := ⟨⟨0⟩, fun _ => false, fun _ _ => true⟩

/-- What a runner can be asked for before it is finalized: a call, or all calls
of a page. -/
inductive Job where
  | call (c : Call)
  | page (page : Markdown.Page)

/-- What a runner hands back, to a job or at the end of a batch. -/
inductive Reply where
  | call (answer : Answer)
  | page (output : Except DuplicateId PageOutput)
  | run (outputs : Except DuplicateId (List PageOutput))
  | finalize (path : Option String)

/-- The tooltips of a page, those of its prose before those of its blocks. -/
def PageOutput.records (p : PageOutput) : List TooltipRecord :=
  p.tooltips ++ p.blocks.flatMap (·.tooltips)

namespace Runner

variable {m : Type → Type} [Monad m]

/-- Does a job. -/
def job (host : Host m) (ctx : Context) : Job → Runner → m (Reply × Runner)
  | .call c, r => do
    let (answer, r) := r.answer ctx (← readings host) c
    return (.call answer, r)
  | .page page, r => do
    let (output, r) ← r.processPage host ctx page
    return (.page output, r)

/-- Takes steps in order. -/
def inTurn {α β : Type} (step : α → Runner → m (β × Runner)) :
    List α → Runner → m (List β × Runner)
  | [], r => return ([], r)
  | x :: xs, r => do
    let (y, r) ← step x r
    let (ys, r) ← inTurn step xs r
    return (y :: ys, r)

/-! ## With a log -/

/-- `processBlocks` with the calls that it makes. -/
def logBlocks (host : Host m) (ctx : Context) (file : String) : List Markdown.CodeBlock → Runner →
    m ((Except DuplicateId (List BlockOutput) × Runner) × List Entry)
  | [], r => return ((.ok [], r), [])
  | block :: blocks, r => do
    if ← host.stopAsked r then return ((.ok [], r), [])
    let clock ← readings host
    let entry := r.entry ctx clock (.block file block)
    match r.processBlock ctx clock file block with
    | (.error e, r) => return ((.error e, r), [entry])
    | (.ok output, r) =>
      let ((outputs, r), log) ← logBlocks host ctx file blocks r
      return ((outputs.map (output :: ·), r), entry :: log)

/-- `processPage` with the calls that it makes. -/
def logPage (host : Host m) (ctx : Context) (page : Markdown.Page) (r : Runner) :
    m ((Except DuplicateId PageOutput × Runner) × List Entry) := do
  let clock ← readings host
  let entry := r.entry ctx clock (.prose page.path page.prose)
  match r.processProse ctx clock page.path page.prose with
  | (.error e, r) => return ((.error e, r), [entry])
  | (.ok tooltips, r) =>
    let ((blocks, r), log) ← logBlocks host ctx page.path page.blocks r
    return ((blocks.map fun blocks => ⟨page.path, tooltips, blocks⟩, r), entry :: log)

/-- `processPages` with the calls that it makes. -/
def logPages (host : Host m) (ctx : Context) : List (m Markdown.Page) → Runner →
    m ((Except DuplicateId (List PageOutput) × Runner) × List Entry)
  | [], r => return ((.ok [], r), [])
  | take :: later, r => do
    let page ← take
    if ← host.stopAsked r then return ((.ok [], r), [])
    match ← r.logPage host ctx page with
    | ((.error e, r), log) => return ((.error e, r), log)
    | ((.ok output, r), log) =>
      let ((outputs, r), rest) ← logPages host ctx later r
      return ((outputs.map (output :: ·), r), log ++ rest)

/-- `job` with the calls that it makes. -/
def logJob (host : Host m) (ctx : Context) : Job → Runner → m ((Reply × Runner) × List Entry)
  | .call c, r => do
    let clock ← readings host
    let (answer, after) := r.answer ctx clock c
    return ((.call answer, after), [r.entry ctx clock c])
  | .page page, r => do
    let ((output, r), log) ← r.logPage host ctx page
    return ((.page output, r), log)

/-- Jobs in order with the calls that they make. -/
def logJobs (host : Host m) (ctx : Context) :
    List Job → Runner → m ((List Reply × Runner) × List Entry)
  | [], r => return (([], r), [])
  | j :: js, r => do
    let ((reply, r), log) ← logJob host ctx j r
    let ((replies, r), rest) ← logJobs host ctx js r
    return ((reply :: replies, r), log ++ rest)

/-! ## Without the log again -/

variable [LawfulMonad m]

theorem fst_logBlocks (host : Host m) (ctx : Context) (file : String)
    (blocks : List Markdown.CodeBlock) (r : Runner) :
    Prod.fst <$> logBlocks host ctx file blocks r = processBlocks host ctx file blocks r := by
  induction blocks generalizing r with
  | nil => simp [logBlocks, processBlocks]
  | cons b blocks ih =>
    rw [logBlocks, processBlocks, map_bind]
    refine bind_congr fun stop => ?_
    split
    · rw [map_pure]
    rw [map_bind]
    refine bind_congr fun clock => ?_
    generalize r.processBlock ctx clock file b = out
    obtain ⟨e | output, after⟩ := out
    · rw [map_pure]
    · simp only [← ih, map_bind, bind_map_left, map_pure]

theorem fst_logPage (host : Host m) (ctx : Context) (page : Markdown.Page) (r : Runner) :
    Prod.fst <$> logPage host ctx page r = processPage host ctx page r := by
  rw [logPage, processPage, map_bind]
  refine bind_congr fun clock => ?_
  generalize r.processProse ctx clock page.path page.prose = out
  obtain ⟨e | tooltips, after⟩ := out
  · rw [map_pure]
  · simp only [← fst_logBlocks, map_bind, bind_map_left, map_pure]

theorem fst_logPages (host : Host m) (ctx : Context) (pages : List (m Markdown.Page))
    (r : Runner) : Prod.fst <$> logPages host ctx pages r = processPages host ctx pages r := by
  induction pages generalizing r with
  | nil => simp [logPages, processPages]
  | cons take later ih =>
    rw [logPages, processPages, map_bind]
    refine bind_congr fun page => ?_
    rw [map_bind]
    refine bind_congr fun stop => ?_
    split
    · rw [map_pure]
    rw [← fst_logPage, map_bind, bind_map_left]
    refine bind_congr fun out => ?_
    obtain ⟨⟨e | output, after⟩, log⟩ := out
    · rw [map_pure]
    · simp only [← ih, map_bind, bind_map_left, map_pure]

theorem fst_logJob (host : Host m) (ctx : Context) (j : Job) (r : Runner) :
    Prod.fst <$> logJob host ctx j r = job host ctx j r := by
  cases j with
  | call c => simp only [logJob, job, map_bind, map_pure]
  | page page => simp only [logJob, job, ← fst_logPage, map_bind, bind_map_left, map_pure]

theorem fst_logJobs (host : Host m) (ctx : Context) (js : List Job) (r : Runner) :
    Prod.fst <$> logJobs host ctx js r = inTurn (job host ctx) js r := by
  induction js generalizing r with
  | nil => simp [logJobs, inTurn]
  | cons j js ih =>
    simp only [logJobs, inTurn, ← ih, ← fst_logJob, map_bind, bind_map_left, map_pure]

end Runner

/-! ## From runner to runner -/

namespace Runner

variable {ctx : Context} {r s t : Runner} {log more : List Entry}

/-- A log leads from a runner to another: its calls, made in order at some
readings of the clock, have its entries and end there. -/
def Leads (ctx : Context) (r : Runner) (log : List Entry) (after : Runner) : Prop :=
  ∃ calls, perform ctx calls r = (log, after)

theorem Leads.nil : Leads ctx r [] r := ⟨[], rfl⟩

theorem Leads.cons {clock : Readings} {c : Call} {a : Answer}
    (hcall : r.answer ctx clock c = (a, s)) (h : Leads ctx s log t) :
    Leads ctx r (r.entry ctx clock c :: log) t := by
  obtain ⟨calls, h⟩ := h
  exact ⟨(clock, c) :: calls, by rw [perform, hcall, h]⟩

theorem Leads.append (h : Leads ctx r log s) (hmore : Leads ctx s more t) :
    Leads ctx r (log ++ more) t := by
  obtain ⟨calls, h⟩ := h
  obtain ⟨rest, hrest⟩ := hmore
  exact ⟨calls ++ rest, by rw [perform_append, h, hrest]⟩

theorem Leads.tells (h : Leads ctx r log s) (hopen : r.finalized = false)
    (htells : r.metrics.Tells ctx more) :
    s.finalized = false ∧ s.metrics.Tells ctx (more ++ log) := by
  obtain ⟨calls, h⟩ := h
  simpa only [h] using perform_tells calls hopen htells

theorem Leads.finalized (h : Leads ctx r log s) : s.finalized = r.finalized := by
  obtain ⟨calls, h⟩ := h
  simpa only [h] using perform_finalized ctx calls r

theorem Leads.final (h : Leads ctx r log s) (hfinal : r.finalized = true) :
    s = { r with pages := s.pages } := by
  obtain ⟨calls, h⟩ := h
  simpa only [h] using perform_final ctx calls hfinal

theorem Leads.pageOf (h : Leads ctx r log s) {file : String}
    (hlog : ∀ e ∈ log, e.call.file ≠ file) : s.pageOf file = r.pageOf file := by
  obtain ⟨calls, h⟩ := h
  have hcalls : ∀ c ∈ calls, c.2.file ≠ file := by
    intro c hc
    have hmem : c.2 ∈ (perform ctx calls r).1.map (·.call) := by
      rw [perform_calls]
      exact List.mem_map_of_mem hc
    obtain ⟨e, he, hec⟩ := List.mem_map.mp hmem
    rw [h] at he
    exact hec ▸ hlog e he
  have hpage := pageOf_perform ctx hcalls r
  rwa [h] at hpage

/-- What comes out with a log: the log leads to the runner after, its calls are
on certain files, and work that went well handed all its tooltips back. -/
structure Logged {α : Type} (ctx : Context) (files : String → Prop) (r : Runner)
    (records : α → List TooltipRecord)
    (out : (Except DuplicateId α × Runner) × List Entry) : Prop where
  leads : Leads ctx r out.2 out.1.2
  files : ∀ e ∈ out.2, files e.call.file
  records : ∀ a, out.1.1 = .ok a → Metrics.emitted out.2 = records a

section Logged

variable {α β : Type} {files : String → Prop} {records : α → List TooltipRecord} {clock : Readings}
  {c : Call} {answer : Answer}

theorem Logged.done {a : α} (h : records a = []) : Logged ctx files r records ((.ok a, r), []) where
  leads := .nil
  files := by simp
  records b hb := by
    cases hb
    exact h.symm

theorem Logged.failed (hcall : r.answer ctx clock c = (answer, s)) (hfile : files c.file)
    (e : DuplicateId) :
    Logged ctx files r records ((.error e, s), [r.entry ctx clock c]) where
  leads := .cons hcall .nil
  files := by simpa [entry] using hfile
  records a ha := by cases ha

/-- A call and then the rest of the work. -/
theorem Logged.cons {out : (Except DuplicateId α × Runner) × List Entry} {f : α → β}
    {all : β → List TooltipRecord} (h : Logged ctx files s records out)
    (hcall : r.answer ctx clock c = (answer, s)) (hfile : files c.file)
    (hall : ∀ a, all (f a) = answer.records ++ records a) :
    Logged ctx files r all ((out.1.1.map f, out.1.2), r.entry ctx clock c :: out.2) where
  leads := .cons hcall h.leads
  files := List.forall_mem_cons.mpr ⟨hfile, h.files⟩
  records b hb := by
    obtain ⟨⟨outcome, after⟩, log⟩ := out
    cases outcome with
    | error e => cases hb
    | ok a =>
      cases hb
      have hrest := h.records a rfl
      rw [hall, ← hrest]
      simp [Metrics.emitted, entry, hcall]

end Logged

variable {m : Type → Type} [Monad m] [LawfulMonad m]

theorem logBlocks_logged (host : Host m) (ctx : Context) (file : String)
    (blocks : List Markdown.CodeBlock) (r : Runner) :
    Returns (logBlocks host ctx file blocks r)
      (Logged ctx (· = file) r fun outputs => outputs.flatMap (·.tooltips)) := by
  induction blocks generalizing r with
  | nil =>
    rw [logBlocks]
    exact .pure (.done rfl)
  | cons b blocks ih =>
    rw [logBlocks]
    refine (Returns.any _).bind fun stop _ => ?_
    split
    · exact .pure (.done rfl)
    refine (Returns.any _).bind fun clock _ => ?_
    rcases h : r.processBlock ctx clock file b with ⟨e | output, after⟩
    · refine .pure (.failed (answer_block h) ?_ e)
      rfl
    · refine (ih after).bind fun later hlater => .pure (hlater.cons (answer_block h) ?_ ?_)
      · rfl
      · exact fun outputs => rfl

theorem logPage_logged (host : Host m) (ctx : Context) (page : Markdown.Page) (r : Runner) :
    Returns (logPage host ctx page r) (Logged ctx (· = page.path) r PageOutput.records) := by
  rw [logPage]
  refine (Returns.any _).bind fun clock _ => ?_
  rcases h : r.processProse ctx clock page.path page.prose with ⟨e | tooltips, after⟩
  · refine .pure (.failed (answer_prose h) ?_ e)
    rfl
  · refine (logBlocks_logged host ctx page.path page.blocks after).bind fun later hlater =>
      .pure (hlater.cons (answer_prose h) ?_ ?_)
    · rfl
    · exact fun blocks => rfl

theorem logPages_logged (host : Host m) (ctx : Context) (pages : List (m Markdown.Page))
    (r : Runner) :
    Returns (logPages host ctx pages r)
      (Logged ctx (fun _ => True) r fun outputs => outputs.flatMap PageOutput.records) := by
  induction pages generalizing r with
  | nil =>
    rw [logPages]
    exact .pure (.done rfl)
  | cons take later ih =>
    rw [logPages]
    refine (Returns.any _).bind fun page _ => ?_
    refine (Returns.any _).bind fun stop _ => ?_
    split
    · exact .pure (.done rfl)
    refine (logPage_logged host ctx page r).bind fun out hout => ?_
    obtain ⟨⟨e | output, after⟩, log⟩ := out
    · exact .pure ⟨hout.leads, fun _ _ => trivial, fun a ha => by cases ha⟩
    · refine (ih after).bind fun rest hrest => .pure ?_
      refine ⟨hout.leads.append hrest.leads, fun _ _ => trivial, fun a ha => ?_⟩
      obtain ⟨⟨outcome, last⟩, rest⟩ := rest
      cases outcome with
      | error e => cases ha
      | ok outputs =>
        cases ha
        have hpage := hout.records output rfl
        have hlater := hrest.records outputs rfl
        simp only [Metrics.emitted, List.flatMap_append, List.flatMap_cons] at hpage hlater ⊢
        rw [hpage, hlater]

theorem logJob_leads (host : Host m) (ctx : Context) (j : Job) (r : Runner) :
    Returns (logJob host ctx j r) fun out => Leads ctx r out.2 out.1.2 := by
  cases j with
  | call c =>
    exact (Returns.any _).bind fun clock _ => .pure (.cons rfl .nil)
  | page page =>
    exact (logPage_logged host ctx page r).bind fun out hout => .pure hout.leads

theorem logJobs_leads (host : Host m) (ctx : Context) (js : List Job) (r : Runner) :
    Returns (logJobs host ctx js r) fun out => Leads ctx r out.2 out.1.2 := by
  induction js generalizing r with
  | nil =>
    rw [logJobs]
    exact .pure .nil
  | cons j js ih =>
    rw [logJobs]
    exact (logJob_leads host ctx j r).bind fun out hout =>
      (ih out.1.2).bind fun rest hrest => .pure (hout.append hrest)

end Runner

end HoverTips
