import HoverTips.Proofs.Batch.Operations
import HoverTips.Proofs.Batch.Stopping

/-! # After the end of a batch

A runner that is finalized stays as it is: its counters, what it printed and the
metrics file do not change any more. Only the ids of pages go on, and so do the
replies. They are those of a runner that was never ended, since no reply looks at
anything but pages. -/

namespace HoverTips

namespace Runner

/-! ## Runners without counters -/

/-- A runner that keeps the ids of pages and nothing else. -/
def muted (r : Runner) : Runner :=
  { new (.new 0 false) "" with pages := r.pages, finalized := true }

/-- What comes out, with the runner after it muted. -/
def mute {α : Type} (out : α × Runner) : α × Runner := (out.1, out.2.muted)

theorem muted_eq_iff {r s : Runner} : r.muted = s.muted ↔ r.pages = s.pages := by
  simp [muted]

variable {ctx : Context}

/-- No call looks at more than the pages. -/
theorem answer_muted (ctx : Context) (clock : Readings) (c : Call) (r : Runner) :
    r.muted.answer ctx clock c = mute (r.answer ctx clock c) := by
  have hpage : r.muted.pageOf c.file = r.pageOf c.file := pageOf_congr rfl c.file
  refine Prod.ext ?_ ?_
  · rw [mute, answer_fst, answer_fst, hpage]
  · rw [answer_final ctx clock c rfl, hpage, mute]
    simp only [muted, answer_pages]

theorem processBlock_muted (clock : Readings) (file : String) (b : Markdown.CodeBlock)
    (r : Runner) :
    r.muted.processBlock ctx clock file b = mute (r.processBlock ctx clock file b) := by
  obtain ⟨hanswer, hafter⟩ := Prod.ext_iff.mp (answer_muted ctx clock (.block file b) r)
  exact Prod.ext (Answer.block.inj hanswer) hafter

theorem processProse_muted (clock : Readings) (file text : String) (r : Runner) :
    r.muted.processProse ctx clock file text = mute (r.processProse ctx clock file text) := by
  obtain ⟨hanswer, hafter⟩ := Prod.ext_iff.mp (answer_muted ctx clock (.prose file text) r)
  exact Prod.ext (Answer.prose.inj hanswer) hafter

end Runner

/-- The host is asked for a stop and does not look at the runner. -/
def Host.Blind {m : Type → Type} (host : Host m) : Prop :=
  ∀ r s, host.stopAsked r = host.stopAsked s

namespace Runner

section Muted

variable {m : Type → Type} [Monad m] [LawfulMonad m] {host : Host m} {ctx : Context}

theorem processBlocks_muted (h : host.Blind) (file : String) (blocks : List Markdown.CodeBlock)
    (r : Runner) :
    r.muted.processBlocks host ctx file blocks =
      mute <$> r.processBlocks host ctx file blocks := by
  induction blocks generalizing r with
  | nil =>
    rw [processBlocks, processBlocks, map_pure]
    rfl
  | cons b blocks ih =>
    rw [processBlocks, processBlocks, map_bind, h r.muted r]
    refine bind_congr fun stop => ?_
    by_cases hstop : stop = true
    · rw [if_pos hstop, if_pos hstop, map_pure]
      rfl
    rw [if_neg hstop, if_neg hstop, map_bind]
    refine bind_congr fun clock => ?_
    rw [processBlock_muted]
    generalize r.processBlock ctx clock file b = out
    obtain ⟨outcome, after⟩ := out
    cases outcome with
    | error e =>
      rw [map_pure]
      rfl
    | ok output =>
      simp only [mute, ih, map_bind, bind_map_left, map_pure]

theorem processPage_muted (h : host.Blind) (page : Markdown.Page) (r : Runner) :
    r.muted.processPage host ctx page = mute <$> r.processPage host ctx page := by
  rw [processPage, processPage, map_bind]
  refine bind_congr fun clock => ?_
  rw [processProse_muted]
  generalize r.processProse ctx clock page.path page.prose = out
  obtain ⟨outcome, after⟩ := out
  cases outcome with
  | error e =>
    rw [map_pure]
    rfl
  | ok tooltips =>
    simp only [mute, processBlocks_muted h, map_bind, bind_map_left, map_pure]

theorem processPages_muted (h : host.Blind) (pages : List (m Markdown.Page)) (r : Runner) :
    r.muted.processPages host ctx pages = mute <$> r.processPages host ctx pages := by
  induction pages generalizing r with
  | nil =>
    rw [processPages, processPages, map_pure]
    rfl
  | cons take later ih =>
    rw [processPages, processPages, map_bind]
    refine bind_congr fun page => ?_
    rw [map_bind, h r.muted r]
    refine bind_congr fun stop => ?_
    by_cases hstop : stop = true
    · rw [if_pos hstop, if_pos hstop, map_pure]
      rfl
    rw [if_neg hstop, if_neg hstop, map_bind, processPage_muted h, bind_map_left]
    refine bind_congr fun out => ?_
    obtain ⟨outcome, after⟩ := out
    cases outcome with
    | error e =>
      rw [map_pure]
      rfl
    | ok output =>
      simp only [mute, ih, map_bind, bind_map_left, map_pure]

theorem work_muted (h : host.Blind) (op : Operation m) (r : Runner) :
    work host ctx op r.muted = mute <$> work host ctx op r := by
  cases op with
  | job j =>
    cases j with
    | call c => simp only [work, job, answer_muted, mute, map_bind, map_pure]
    | page page => simp only [work, job, processPage_muted h, mute, map_bind, bind_map_left, map_pure]
  | run pages => simp only [work, processPages_muted h, mute, map_bind, bind_map_left, map_pure]
  | finalize => simp only [work, mute, map_pure]

theorem inTurn_muted (h : host.Blind) (ops : List (Operation m)) (r : Runner) :
    inTurn (work host ctx) ops r.muted = mute <$> inTurn (work host ctx) ops r := by
  induction ops generalizing r with
  | nil =>
    rw [inTurn, inTurn, map_pure]
    rfl
  | cons op ops ih =>
    rw [inTurn, inTurn, work_muted h, map_bind, bind_map_left]
    refine bind_congr fun out => ?_
    simp only [mute, ih, map_bind, bind_map_left, map_pure]

theorem work_congr (h : host.Blind) (op : Operation m) {r s : Runner} (hpages : r.pages = s.pages) :
    mute <$> work host ctx op r = mute <$> work host ctx op s := by
  rw [← work_muted h, ← work_muted h, muted_eq_iff.mpr hpages]

/-- Runners with the same pages reply the same, and keep the same pages. -/
theorem inTurn_work_congr (h : host.Blind) (ops : List (Operation m)) {r s : Runner}
    (hpages : r.pages = s.pages) :
    mute <$> inTurn (work host ctx) ops r = mute <$> inTurn (work host ctx) ops s := by
  rw [← inTurn_muted h, ← inTurn_muted h, muted_eq_iff.mpr hpages]

end Muted

/-! ## The metrics file -/

variable {σ φ : Type}

/-- A computation leaves a part of the world as it is. -/
def Keeps {α : Type} (part : σ → φ) (x : StateM σ α) : Prop := ∀ w, part (x w).2 = part w

theorem Keeps.pure {α : Type} {part : σ → φ} {a : α} : Keeps part (Pure.pure a : StateM σ α) :=
  fun _ => rfl

theorem Keeps.bind {α β : Type} {part : σ → φ} {x : StateM σ α} {f : α → StateM σ β}
    (hx : Keeps part x) (hf : ∀ a, Keeps part (f a)) : Keeps part (x >>= f) := by
  intro w
  rw [bind_apply, hf, hx]

end Runner

open Runner

/-- The host leaves a part of the world as it is, unless it writes the metrics file. -/
structure Host.Leaves {σ φ : Type} (host : Host (StateM σ)) (part : σ → φ) : Prop where
  now : Keeps part host.now
  stopAsked : ∀ r, Keeps part (host.stopAsked r)

/-- To take the pages of a batch leaves a part of the world as it is. -/
def Operation.Leaves {σ φ : Type} (part : σ → φ) : Operation (StateM σ) → Prop
  | .run pages => ∀ take ∈ pages, Keeps part take
  | .job _ | .finalize => True

namespace Runner

section Leaves

variable {host : Host (StateM σ)} {part : σ → φ} {ctx : Context}

theorem readings_keeps (h : host.Leaves part) : Keeps part (readings host) := by
  rw [readings]
  exact h.now.bind fun entered => h.now.bind fun counted => .pure

theorem processBlocks_keeps (h : host.Leaves part) (file : String)
    (blocks : List Markdown.CodeBlock) (r : Runner) :
    Keeps part (r.processBlocks host ctx file blocks) := by
  induction blocks generalizing r with
  | nil => exact .pure
  | cons b blocks ih =>
    rw [processBlocks]
    refine (h.stopAsked r).bind fun stop => ?_
    split
    · exact .pure
    refine (readings_keeps h).bind fun clock => ?_
    split
    · exact .pure
    · exact (ih _).bind fun rest => .pure

theorem processPage_keeps (h : host.Leaves part) (page : Markdown.Page) (r : Runner) :
    Keeps part (r.processPage host ctx page) := by
  rw [processPage]
  refine (readings_keeps h).bind fun clock => ?_
  split
  · exact .pure
  · exact (processBlocks_keeps h _ _ _).bind fun blocks => .pure

theorem processPages_keeps (h : host.Leaves part) {pages : List (StateM σ Markdown.Page)}
    (htake : ∀ take ∈ pages, Keeps part take) (r : Runner) :
    Keeps part (r.processPages host ctx pages) := by
  induction pages generalizing r with
  | nil => exact .pure
  | cons take later ih =>
    rw [List.forall_mem_cons] at htake
    rw [processPages]
    refine htake.1.bind fun page => (h.stopAsked r).bind fun stop => ?_
    split
    · exact .pure
    refine (processPage_keeps h page r).bind fun out => ?_
    split
    · exact .pure
    · exact (ih htake.2 _).bind fun rest => .pure

theorem work_keeps (h : host.Leaves part) {op : Operation (StateM σ)} (hop : op.Leaves part)
    (r : Runner) : Keeps part (work host ctx op r) := by
  cases op with
  | job j =>
    cases j with
    | call c => exact (readings_keeps h).bind fun clock => .pure
    | page page => exact (processPage_keeps h page r).bind fun out => .pure
  | run pages => exact (processPages_keeps h hop r).bind fun out => .pure
  | finalize => exact .pure

theorem inTurn_work_keeps (h : host.Leaves part) {ops : List (Operation (StateM σ))}
    (hops : ∀ op ∈ ops, op.Leaves part) (r : Runner) :
    Keeps part (inTurn (work host ctx) ops r) := by
  induction ops generalizing r with
  | nil => exact .pure
  | cons op ops ih =>
    rw [List.forall_mem_cons] at hops
    rw [inTurn]
    exact (work_keeps h hops.1 r).bind fun out => (ih hops.2 _).bind fun rest => .pure

end Leaves

/-! ## Nothing changes any more -/

/-- To end a batch that goes well does not change what it hands back. -/
theorem operate_reply (host : Host (StateM σ)) (ctx : Context) {op : Operation (StateM σ)}
    (hop : op ≠ .finalize) (r : Runner) (w : σ) :
    (operate host ctx op r w).1.1 = (work host ctx op r w).1.1 := by
  cases op with
  | job j => rfl
  | run pages =>
    have hrun := run_fst host ctx pages r w
    exact congrArg Reply.run hrun
  | finalize => exact absurd rfl hop

section Alike

variable {host : Host (StateM σ)} {r s : Runner}

theorem operate_reply_congr (h : host.Blind) (ctx : Context) {op : Operation (StateM σ)}
    (hop : op ≠ .finalize) (hpages : r.pages = s.pages) (w : σ) :
    (operate host ctx op r w).1.1 = (operate host ctx op s w).1.1 := by
  have hwork : (mute <$> work host ctx op r) w = (mute <$> work host ctx op s) w :=
    congrFun (work_congr h op hpages) w
  rw [operate_reply host ctx hop, operate_reply host ctx hop]
  exact congrArg (fun out => out.1.1) hwork

theorem inTurn_work_alike (h : host.Blind) (ctx : Context) (ops : List (Operation (StateM σ)))
    (hpages : r.pages = s.pages) (w : σ) :
    let out := inTurn (work host ctx) ops r w
    let ref := inTurn (work host ctx) ops s w
    out.1.1 = ref.1.1 ∧ out.1.2.pages = ref.1.2.pages ∧ out.2 = ref.2 := by
  intro out ref
  have hsame : (mute out.1, out.2) = (mute ref.1, ref.2) :=
    congrFun (inTurn_work_congr h ops hpages) w
  obtain ⟨hmute, hworld⟩ := Prod.mk.inj hsame
  obtain ⟨hreplies, hmuted⟩ := Prod.mk.inj hmute
  exact ⟨hreplies, muted_eq_iff.mp hmuted, hworld⟩

end Alike

/-- Once a runner is finalized, whether or not its metrics file could be written,
no operation changes its counters, what they say at any time, what was printed or
the metrics file, and a further end replies nothing. All other operations reply
what they reply on a runner with the same pages that is not ended. -/
theorem finalized_stays (host : Host (StateM σ)) (ctx : Context) (progress : Progress)
    (logsDir : String) {before : List (Operation (StateM σ))} {replies : List Reply} {r : Runner}
    {w₀ w : σ}
    (hreached : inTurn (operate host ctx) before (new progress logsDir) w₀ = ((replies, r), w))
    (hfinal : r.finalized = true) (after : List (Operation (StateM σ))) :
    let out := inTurn (operate host ctx) after r w
    (∀ (s : Runner) v, (s.finalize host v).1.2.finalized = true) ∧
      out.1.2.metrics = r.metrics ∧
      (∀ now later, out.1.2.metrics.artifact later = r.metrics.artifact now) ∧
      out.1.2.progress.printed = r.progress.printed ∧
      (∀ file : σ → φ, host.Leaves file → (∀ op ∈ after, op.Leaves file) → file out.2 = file w) ∧
      List.Forall₂ (fun op reply => op = .finalize → reply = .finalize none) after out.1.1 ∧
      (host.Blind → ∀ s : Runner, s.finalized = false → s.pages = r.pages →
        let ref := inTurn (work host ctx) after s w
        ref.1.2.finalized = false ∧ ref.1.1 = out.1.1 ∧
          ∀ op, op ≠ .finalize → (operate host ctx op ref.1.2 ref.2).1.1 =
            (operate host ctx op out.1.2 out.2).1.1) := by
  intro out
  have hmarked := (inTurn_marked host ctx progress logsDir before).from w₀
  rw [hreached] at hmarked
  obtain ⟨hstays, hreplies⟩ := (inTurn_final host ctx after hfinal).from w
  have hmetrics : out.1.2.metrics = r.metrics := by
    rw [hstays]
  -- nothing from here on ends the batch, so the file and the replies are those of work alone
  have hwork : out = inTurn (work host ctx) after r w :=
    congrFun (inTurn_operate_final host after hfinal) w
  refine ⟨fun s v => ((finalize_moves host ctx s).from v).1, hmetrics, fun now later => ?_, ?_,
    fun file hhost hafter => ?_, hreplies, fun hblind s hopen hpages => ?_⟩
  · rw [hmetrics]
    exact Metrics.artifact_eq (hmarked hfinal) later now
  · rw [hstays]
  · rw [hwork]
    exact inTurn_work_keeps hhost hafter r w
  · intro ref
    have hreference := (inTurn_work_finalized host ctx after s).from w
    obtain ⟨hreplied, hkept, hworld⟩ := inTurn_work_alike hblind ctx after hpages w
    rw [← hwork] at hreplied hkept hworld
    refine ⟨hreference.trans hopen, hreplied, fun op hop => ?_⟩
    rw [operate_reply_congr hblind ctx hop hkept, hworld]

/-! ## A batch that is ended twice -/

/-- A host whose clock goes on with every reading, and that keeps the texts it
was to write. -/
def tickingHost : Host (StateM (Nat × List String)) :=
  ⟨fun (t, texts) => (⟨t⟩, t + 1, texts), fun _ => pure false,
    fun _ text (t, texts) => (true, t, text :: texts)⟩

theorem tickingHost_leaves : tickingHost.Leaves Prod.snd where
  now _ := rfl
  stopAsked _ _ := rfl

/-- A page and the end. -/
def toTheEnd : List (Operation (StateM (Nat × List String))) :=
  [.job (.page ⟨"a.md", [⟨"a.md#0", "ts", "x)"⟩], "DD"⟩), .finalize]

/-- A block, a batch of one page, and the end. -/
def afterTheEnd : List (Operation (StateM (Nat × List String))) :=
  [.job (.call (.block "a.md" ⟨"a.md#1", "ts", "x)"⟩)), .run [pure ⟨"b.md", [], "DD"⟩], .finalize]

theorem afterTheEnd_leaves : ∀ op ∈ afterTheEnd, op.Leaves Prod.snd := by
  intro op hop
  simp only [afterTheEnd, List.mem_cons, List.not_mem_nil, or_false] at hop
  rcases hop with rfl | rfl | rfl
  · trivial
  · intro take htake
    obtain rfl := List.mem_singleton.mp htake
    exact .pure
  · trivial

/-- What comes after the end leaves the counters and the one text that was
written as they are. -/
theorem finalized_stays_sample :
    ∃ replies r w, inTurn (operate tickingHost sampleContext) toTheEnd (new (.new 0 false) "logs")
        (0, []) = ((replies, r), w) ∧
      r.finalized = true ∧ r.metrics.processed = 4 ∧ w.2.length = 1 ∧
      let out := inTurn (operate tickingHost sampleContext) afterTheEnd r w
      out.1.2.metrics = r.metrics ∧ out.1.2.progress.printed = r.progress.printed ∧
        out.2.2 = w.2 ∧
        ∀ s : Runner, s.finalized = false → s.pages = r.pages →
          (inTurn (work tickingHost sampleContext) afterTheEnd s w).1.1 = out.1.1 := by
  have hfinal : (inTurn (operate tickingHost sampleContext) toTheEnd (new (.new 0 false) "logs")
      (0, [])).1.2.finalized = true := by
    decide +kernel
  have hcounts : (inTurn (operate tickingHost sampleContext) toTheEnd (new (.new 0 false) "logs")
      (0, [])).1.2.metrics.processed = 4 := by
    decide +kernel
  have htexts : (inTurn (operate tickingHost sampleContext) toTheEnd (new (.new 0 false) "logs")
      (0, [])).2.2.length = 1 := by
    decide +kernel
  rcases hreached : inTurn (operate tickingHost sampleContext) toTheEnd (new (.new 0 false) "logs")
      (0, []) with ⟨⟨replies, r⟩, w⟩
  rw [hreached] at hfinal hcounts htexts
  have hstays := finalized_stays (φ := List String) tickingHost sampleContext (.new 0 false) "logs"
    hreached hfinal afterTheEnd
  obtain ⟨_, hmetrics, _, hprinted, hfile, _, hreplies⟩ := hstays
  have hblind : tickingHost.Blind := fun _ _ => rfl
  exact ⟨replies, r, w, rfl, hfinal, hcounts, htexts, hmetrics, hprinted,
    hfile Prod.snd tickingHost_leaves afterTheEnd_leaves,
    fun s hopen hpages => (hreplies hblind s hopen hpages).2.1⟩

end Runner

end HoverTips
