import HoverTips.Command.Annotate
import HoverTips.Proofs.Batch.Steady
import HoverTips.Proofs.Batch.Stopping
import HoverTips.Proofs.Files.Pages

/-! # Annotating as a batch

The command reads a page, annotates it and writes its side-car before it reads the
next one, and it leaves pages out that it cannot read. A batch takes all its pages
and writes no side-cars. Both come to the same: a side-car never changes a page, so
the command annotates the readable pages as they were at the start, and ends with
the counters of a batch over them. -/

namespace HoverTips

namespace Files.Store

/-- The pages at some paths of a docs tree that can be read, in order. -/
def readablePages (s : Store) (analyzer : Analyzer) (docs : String) (paths : List String) :
    List Markdown.Page :=
  paths.filterMap fun path =>
    match s.read? (below docs path) with
    | some (.ok markdown) => some (analyzer.page path markdown)
    | _ => none

/-- Whether a page of a docs tree can be read. -/
def canRead (s : Store) (docs path : String) : Bool := (s.read? (below docs path)).any (·.isOk)

theorem readablePages_paths (s : Store) (analyzer : Analyzer) (docs : String)
    (paths : List String) :
    (s.readablePages analyzer docs paths).map (·.path) = paths.filter (s.canRead docs) := by
  induction paths with
  | nil => rfl
  | cons path paths ih =>
    rw [readablePages] at ih ⊢
    rw [List.filterMap_cons, List.filter_cons, canRead]
    rcases s.read? (below docs path) with _ | ⟨_ | markdown⟩
    · exact ih
    · exact ih
    · exact congrArg (path :: ·) ih

/-- The path of the side-car for an output. -/
def sidecarOf (out : String) (output : PageOutput) : String := below out (sidecarPath output.page)

/-- The store with a side-car for each output, written one after the other. -/
def withSidecars (s : Store) (out : String) (outputs : List PageOutput) : Except Fault Store :=
  outputs.foldlM (fun s output => s.withFile (sidecarOf out output) output.toJson.fileText) s

end Files.Store

namespace Command

open Files Runner

variable {n : Type → Type} [Monad n]

/-- The site of a host, with a store for its files. -/
def Site.over (host : Host n) (conclude : Runner → n Unit) (onTerminal : n Bool) :
    Site (StateT Store n) :=
  .ofStore (liftM host.now) (fun r => liftM (host.stopAsked r)) (fun r => liftM (conclude r))
    (liftM onTerminal)

/-- Annotates pages and finalizes the batch, whatever came of it. -/
def annotateToEnd {m : Type → Type} [Monad m] (site : Site m) (analyzer : Analyzer) (plan : Plan)
    (paths : List String) (r : Runner) : m (Except Failure Unit × Runner) := do
  let (outcome, r) ← annotatePages site analyzer plan paths r
  let (_, r) ← r.finalize site.toHost
  return (outcome, r)

/-- The command shows the runner that an annotation ends with, and has its outcome. -/
theorem annotateAll_eq {m : Type → Type} [Monad m] [LawfulMonad m] (site : Site m)
    (analyzer : Analyzer) (plan : Plan) (paths : List String) (r : Runner) :
    annotateAll site analyzer plan paths r = do
      let (outcome, r) ← annotateToEnd site analyzer plan paths r
      site.conclude r
      return outcome := by
  simp [annotateAll, annotateToEnd]

variable [LawfulMonad n] {host : Host n} {conclude : Runner → n Unit} {onTerminal : n Bool}

/-! ## The work on a page -/

theorem run_liftM {α : Type} (x : n α) (s : Store) :
    (liftM x : StateT Store n α).run s = (fun a => (a, s)) <$> x := by
  simp

theorem readings_over : readings (Site.over host conclude onTerminal).toHost =
    liftM (readings host) := by
  rw [readings, readings, liftM_bind]
  refine bind_congr fun entered => ?_
  rw [liftM_bind]
  exact bind_congr fun counted => (liftM_pure _).symm

theorem processBlocks_over (ctx : Context) (file : String) (blocks : List Markdown.CodeBlock)
    (r : Runner) :
    r.processBlocks (Site.over host conclude onTerminal).toHost ctx file blocks =
      liftM (r.processBlocks host ctx file blocks) := by
  induction blocks generalizing r with
  | nil => exact (liftM_pure _).symm
  | cons b blocks ih =>
    rw [processBlocks, processBlocks, liftM_bind]
    refine bind_congr fun stop => ?_
    split
    · exact (liftM_pure _).symm
    rw [readings_over, liftM_bind]
    refine bind_congr fun clock => ?_
    split
    · exact (liftM_pure _).symm
    · rw [ih, liftM_bind]
      exact bind_congr fun rest => (liftM_pure _).symm

/-- The work on a page does not look at files. -/
theorem processPage_over (ctx : Context) (page : Markdown.Page) (r : Runner) :
    r.processPage (Site.over host conclude onTerminal).toHost ctx page =
      liftM (r.processPage host ctx page) := by
  rw [processPage, processPage, readings_over, liftM_bind]
  refine bind_congr fun clock => ?_
  split
  · exact (liftM_pure _).symm
  · rw [processBlocks_over, liftM_bind]
    exact bind_congr fun rest => (liftM_pure _).symm

/-! ## Files -/

theorem attempt_ok {change : Store → Except Fault Store} {s t : Store} (h : change s = .ok t) :
    Store.attempt change s = (.ok (), t) := by
  rw [Store.attempt, h]

theorem read_over (path : String) (s : Store) :
    ((Site.over host conclude onTerminal).disk.read path).run s =
      (pure (s.read? path, s) : n (Option (Except Fault String) × Store)) := by
  simp [Site.over, Site.ofStore, Store.disk, getThe]

/-- A side-car that can be written is. -/
theorem keepOutput_over {out : String} {output : PageOutput} {s t : Store}
    (h : s.withFile (Store.sidecarOf out output) output.toJson.fileText = .ok t) :
    (keepOutput (Site.over host conclude onTerminal).disk (some out) output).run s =
      (pure (.ok (), t) : n (Except Failure Unit × Store)) := by
  obtain ⟨ready, hready, hwritten⟩ := Tree.bind_eq_ok_iff.mp h
  have hparent : ((Site.over host conclude onTerminal).disk.makeParent
      (Store.sidecarOf out output)).run s = pure (.ok (), ready) :=
    congrArg pure (attempt_ok hready)
  have hwrite : ((Site.over host conclude onTerminal).disk.write
      (Store.sidecarOf out output) output.toJson.fileText).run ready = pure (.ok (), t) :=
    congrArg pure (attempt_ok hwritten)
  change (writeSidecar (Site.over host conclude onTerminal).disk out output).run s = _
  unfold writeSidecar
  dsimp only
  rw [StateT.run_bind]
  change (((Site.over host conclude onTerminal).disk.makeParent
    (Store.sidecarOf out output)).run s >>= _) = _
  rw [hparent, pure_bind]
  dsimp only
  rw [StateT.run_bind]
  change (((Site.over host conclude onTerminal).disk.write
    (Store.sidecarOf out output) output.toJson.fileText).run ready >>= _) = _
  rw [hwrite, pure_bind]
  rfl

theorem finalize_over {r : Runner} (h : r.finalized = false) (s : Store) :
    Returns ((r.finalize (Site.over host conclude onTerminal).toHost).run s) fun done =>
      done.1.2.finalized = true ∧ done.1.2.metrics.untimed = r.metrics.untimed ∧
        ∃ text, done.2 = (s.writeFile (join r.logsDir metricsFile) text).2 := by
  rw [finalize, if_neg (by simp [h]), StateT.run_bind]
  change Returns ((liftM host.now : StateT Store n Instant).run s >>= _) _
  rw [run_liftM, bind_map_left]
  refine (Returns.any host.now).bind fun now _ => ?_
  dsimp only
  rw [StateT.run_bind]
  change Returns (pure ((s.writeFile (join r.logsDir metricsFile) _).1.isOk,
    (s.writeFile (join r.logsDir metricsFile) _).2) >>= _) _
  rw [pure_bind]
  dsimp only
  split
  · exact .pure ⟨rfl, rfl, _, rfl⟩
  · exact .pure ⟨rfl, rfl, _, rfl⟩

/-! ## Pages in order -/

/-- A page that is read while side-cars are written is read as it was at the start. -/
theorem read_page {start s : Store} {docs path : String} {bytes : ByteArray}
    (hpage : IsPagePath path) (hholds : start.Holds (below docs path) bytes)
    (hleaves : start.Leaves s AtSidecar) :
    start.read? (below docs path) = some (Store.textOf bytes) ∧
      s.read? (below docs path) = some (Store.textOf bytes) :=
  ⟨hholds.read?, (hholds.of_leaves hleaves (Store.not_atSidecar hpage docs)).read?⟩

theorem sidecar_leaves {out : String} {output : PageOutput} {s t : Store}
    (hpage : IsPagePath output.page)
    (h : s.withFile (Store.sidecarOf out output) output.toJson.fileText = .ok t) :
    s.Leaves t AtSidecar := by
  refine (Store.withFile_sidecar hpage h).1.imp ?_
  intro k hk
  rw [hk]
  exact Store.atSidecar hpage out

theorem annotatePages_steady {analyzer : Analyzer} {plan : Plan} {out : String}
    (hhost : host.NeverStops) (hout : plan.out = some out) {start : Store} {paths : List String}
    (hpaths : ∀ path ∈ paths, IsPagePath path ∧ ∃ bytes, start.Holds (below plan.docs path) bytes)
    {s kept : Store} (hleaves : start.Leaves s AtSidecar) {r ref : Runner} (halike : r.Alike ref)
    {outputs : List PageOutput}
    (hrun : (ref.processPages Host.still (plan.context analyzer)
      (start.readablePages analyzer plan.docs paths)).1 = .ok outputs)
    (hkept : s.withSidecars out outputs = .ok kept) :
    Returns ((annotatePages (Site.over host conclude onTerminal) analyzer plan paths r).run s)
      fun done => done.1.1 = .ok () ∧ done.1.2.Alike (ref.processPages Host.still
        (plan.context analyzer) (start.readablePages analyzer plan.docs paths)).2 ∧
        done.2 = kept := by
  induction paths generalizing s r ref outputs with
  | nil =>
    cases hrun
    cases hkept
    exact .pure ⟨rfl, halike, rfl⟩
  | cons path paths ih =>
    rw [List.forall_mem_cons] at hpaths
    obtain ⟨⟨hpage, bytes, hholds⟩, hpaths⟩ := hpaths
    obtain ⟨hstart, hnow⟩ := read_page hpage hholds hleaves
    rw [annotatePages, StateT.run_bind]
    change Returns ((liftM (host.stopAsked r) : StateT Store n Bool).run s >>= _) _
    rw [run_liftM, bind_map_left]
    refine (hhost r).bind fun stop hstop => ?_
    dsimp only
    rw [hstop, if_neg (by simp), StateT.run_bind, read_over, pure_bind]
    dsimp only
    rw [hnow]
    rw [Store.readablePages, List.filterMap_cons, hstart] at hrun ⊢
    cases htext : Store.textOf bytes with
    | error fault =>
      rw [htext] at hrun
      exact ih hpaths hleaves halike hrun hkept
    | ok markdown =>
      rw [htext] at hrun
      dsimp only at hrun ⊢
      rw [still_processPages_cons] at hrun ⊢
      rw [processPage_over, StateT.run_bind]
      rw [run_liftM, bind_map_left]
      refine (processPage_steady hhost (plan.context analyzer) (analyzer.page path markdown)
        halike).bind fun done hdone => ?_
      have houtput : ∀ output after, ref.processPage Host.still (plan.context analyzer)
          (analyzer.page path markdown) = (.ok output, after) → output.page = path :=
        fun _ _ hpage => still_processPage_page hpage
      generalize ref.processPage Host.still (plan.context analyzer) (analyzer.page path markdown) =
        known at hrun hdone houtput ⊢
      obtain ⟨outcome, after⟩ := done
      obtain ⟨outcome', after'⟩ := known
      obtain ⟨rfl, hafter⟩ : outcome = outcome' ∧ after.Alike after' := hdone
      cases outcome with
      | error e => cases hrun
      | ok output =>
        dsimp only at hrun ⊢
        obtain ⟨rest, hrest, rfl⟩ : ∃ rest, (after'.processPages Host.still (plan.context analyzer)
            (start.readablePages analyzer plan.docs paths)).1 = .ok rest ∧
              output :: rest = outputs := Tree.map_eq_ok_iff.mp hrun
        obtain ⟨next, hnext, hlater⟩ := Tree.bind_eq_ok_iff.mp hkept
        have hpath : output.page = path := houtput output after' rfl
        have hsidecars : start.Leaves next AtSidecar :=
          (hleaves.trans (sidecar_leaves (hpath ▸ hpage) hnext)).imp fun _ hk => hk.elim id id
        rw [StateT.run_bind, hout, keepOutput_over hnext, pure_bind]
        exact ih hpaths hsidecars hafter hrest hlater

theorem annotateToEnd_steady (conclude : Runner → n Unit) (onTerminal : n Bool)
    {analyzer : Analyzer} {plan : Plan} {out : String} (hhost : host.NeverStops)
    (hout : plan.out = some out) {s kept : Store} {paths : List String}
    (hpaths : ∀ path ∈ paths, IsPagePath path ∧ ∃ bytes, s.Holds (below plan.docs path) bytes)
    {r ref : Runner} (halike : r.Alike ref) {outputs : List PageOutput}
    (hrun : (ref.processPages Host.still (plan.context analyzer)
      (s.readablePages analyzer plan.docs paths)).1 = .ok outputs)
    (hkept : s.withSidecars out outputs = .ok kept) :
    Returns ((annotateToEnd (Site.over host conclude onTerminal) analyzer plan paths r).run s)
      fun done => done.1.1 = .ok () ∧ done.1.2.finalized = true ∧
        done.1.2.metrics.untimed = (ref.processPages Host.still (plan.context analyzer)
          (s.readablePages analyzer plan.docs paths)).2.metrics.untimed ∧
        ∃ text, done.2 = (kept.writeFile (join ref.logsDir metricsFile) text).2 := by
  rw [annotateToEnd, StateT.run_bind]
  refine (annotatePages_steady hhost hout hpaths (.refl s _) halike hrun hkept).bind
    fun done hdone => ?_
  obtain ⟨⟨outcome, after⟩, t⟩ := done
  obtain ⟨rfl, hafter, rfl⟩ := hdone
  dsimp only
  rw [StateT.run_bind]
  refine (finalize_over hafter.left t).bind fun ended hended => ?_
  obtain ⟨hfinal, hcounted, text, htext⟩ := hended
  refine .pure ⟨rfl, hfinal, hcounted.trans hafter.metrics, text, ?_⟩
  rw [htext, hafter.logsDir, still_processPages_logsDir]

/-! ## Side-cars -/

theorem withSidecars_spec {out : String} {outputs : List PageOutput} {s t : Store}
    (hpages : ∀ o ∈ outputs, IsPagePath o.page) (hnodup : (outputs.map (·.page)).Nodup)
    (h : s.withSidecars out outputs = .ok t) :
    s.Leaves t (fun names => ∃ o ∈ outputs, names = s.placeOf (Store.sidecarOf out o)) ∧
      ∀ o ∈ outputs, t.Holds (Store.sidecarOf out o) o.toJson.fileText.toUTF8 := by
  induction outputs generalizing s with
  | nil =>
    cases h
    exact ⟨.refl _ _, by simp⟩
  | cons output outputs ih =>
    rw [List.forall_mem_cons] at hpages
    rw [List.map_cons, List.nodup_cons] at hnodup
    obtain ⟨next, hnext, hlater⟩ := Tree.bind_eq_ok_iff.mp h
    obtain ⟨hfirst, hholds⟩ := Store.withFile_sidecar hpages.1 hnext
    obtain ⟨hrest, hothers⟩ := ih hpages.2 hnodup.2 hlater
    simp only [hfirst.placeOf] at hrest
    refine ⟨(hfirst.trans hrest).imp ?_, List.forall_mem_cons.mpr ⟨?_, hothers⟩⟩
    · intro names hnames
      rcases hnames with he | ⟨o, ho, he⟩
      · exact ⟨output, .head _, he⟩
      · exact ⟨o, .tail _ ho, he⟩
    · -- no later side-car stands in the place of the first one
      refine hholds.of_leaves hrest ?_
      rintro ⟨o, ho, he⟩
      rw [hfirst.placeOf] at he
      refine hnodup.1 (List.mem_map.mpr ⟨o, ho, ?_⟩)
      exact Store.placeOf_sidecar_injective (hpages.2 o ho) hpages.1 he.symm

theorem withSidecars_writeFile {out : String} {outputs : List PageOutput} {s kept : Store}
    (hpages : ∀ o ∈ outputs, IsPagePath o.page) (hnodup : (outputs.map (·.page)).Nodup)
    (h : s.withSidecars out outputs = .ok kept) (directory text : String) :
    s.Leaves (kept.writeFile (join directory metricsFile) text).2 (fun names =>
        (∃ o ∈ outputs, names = s.placeOf (Store.sidecarOf out o)) ∨
          names = s.placeOf (join directory metricsFile)) ∧
      ∀ o ∈ outputs, (kept.writeFile (join directory metricsFile) text).2.Holds
        (Store.sidecarOf out o) o.toJson.fileText.toUTF8 := by
  obtain ⟨hsidecars, hholds⟩ := withSidecars_spec hpages hnodup h
  obtain ⟨hmetrics, hapart⟩ := kept.writeFile_metrics directory text
  refine ⟨?_, ?_⟩
  · rw [hsidecars.placeOf] at hmetrics
    exact hsidecars.trans hmetrics
  · intro o ho
    refine (hholds o ho).of_leaves hmetrics ?_
    intro he
    exact hapart (he ▸ Store.atSidecar (hpages o ho) out)

/-! ## The whole annotation -/

theorem still_readable_outputs {s : Store} {analyzer : Analyzer} {docs : String}
    {paths : List String} {ctx : Context} {r : Runner} {outputs : List PageOutput}
    (h : (r.processPages Host.still ctx (s.readablePages analyzer docs paths)).1 = .ok outputs) :
    outputs.map (·.page) = paths.filter (s.canRead docs) := by
  rw [still_processPages_paths h, Store.readablePages_paths]

/-- A page that cannot be read is not counted. -/
theorem still_readable_files {s : Store} (analyzer : Analyzer) {docs path : String}
    (paths : List String) (ctx : Context) (progress : Progress) (logsDir : String)
    (h : s.canRead docs path = false) :
    path ∉ ((new progress logsDir).processPages Host.still ctx
      (s.readablePages analyzer docs paths)).2.metrics.files := by
  intro hcount
  obtain ⟨log, htells, hlog⟩ := still_processPages_files ctx
    (s.readablePages analyzer docs paths) (r := new progress logsDir) rfl
    (Metrics.empty_tells ctx)
  obtain ⟨e, he, hfile⟩ := (htells.files path).mp hcount
  have hseen := hlog e he
  rw [hfile, Store.readablePages_paths, List.mem_filter, h] at hseen
  cases hseen.2

theorem annotateAll_of_toEnd {τ : Type} {host : Host (StateM τ)} {conclude : Runner → StateM τ Unit}
    {onTerminal : StateM τ Bool} {analyzer : Analyzer} {plan : Plan} {paths : List String}
    {r ended : Runner} {s t : Store} {w w' : τ} {outcome : Except Failure Unit}
    (h : ((annotateToEnd (Site.over host conclude onTerminal) analyzer plan paths r).run s).run w =
      (((outcome, ended), t), w')) :
    annotateAll (Site.over host conclude onTerminal) analyzer plan paths r s w =
      ((outcome, t), (conclude ended w').2) := by
  rw [annotateAll_eq]
  change ((annotateToEnd (Site.over host conclude onTerminal) analyzer plan paths r >>= _ :
    StateT Store (StateM τ) _).run s).run w = _
  rw [StateT.run_bind, StateT.run_bind, h]
  rfl

/-- Annotating the pages that a scan found, while no stop is asked for and all writes
succeed, is a batch over those that can be read, if that goes well. It goes well too,
and its runner is finalized and has counted the same. For every output there is a
side-car with it, in a place of its own; no other file has changed but the one for
the metrics. A page that cannot be read is not counted, and where its side-car would
be nothing has changed. -/
theorem annotate_refines_run {σ τ : Type} {quiet : Host (StateM σ)}
    (hquiet : ∀ r v, (quiet.stopAsked r v).1 = false) {host : Host (StateM τ)}
    (hhost : ∀ r w, (host.stopAsked r w).1 = false) (conclude : Runner → StateM τ Unit)
    (onTerminal : StateM τ Bool) (analyzer : Analyzer) {plan : Plan} {out : String}
    (hout : plan.out = some out) {s : Store} (hwell : s.root.wellNamed = true)
    {exclude : List Glob} {paths : List String} (hscan : s.scan plan.docs exclude = .ok paths)
    (progress : Progress) (logsDir : String) {v v' : σ} {outputs : List PageOutput} {ended : Runner}
    (hrun : (new progress logsDir).run quiet (plan.context analyzer)
      ((s.readablePages analyzer plan.docs paths).map pure) v = ((.ok outputs, ended), v'))
    {kept : Store} (hkept : s.withSidecars out outputs = .ok kept) (w : τ) :
    ∃ r t w', annotateToEnd (Site.over host conclude onTerminal) analyzer plan paths
        (new progress logsDir) s w = (((.ok (), r), t), w') ∧
      annotateAll (Site.over host conclude onTerminal) analyzer plan paths
        (new progress logsDir) s w = ((.ok (), t), (conclude r w').2) ∧
      r.finalized = true ∧ ended.finalized = true ∧ r.metrics.untimed = ended.metrics.untimed ∧
      (outputs.map fun o => s.placeOf (Store.sidecarOf out o)).Nodup ∧
      (∀ o ∈ outputs, t.readText (Store.sidecarOf out o) = .ok o.toJson.fileText) ∧
      (∀ names bytes, (∀ o ∈ outputs, names ≠ s.placeOf (Store.sidecarOf out o)) →
        names ≠ s.placeOf (join logsDir metricsFile) →
          (t.root.get? names = some (.file bytes) ↔ s.root.get? names = some (.file bytes))) ∧
      ∀ path ∈ paths, s.canRead plan.docs path = false →
        path ∉ r.metrics.files ∧ ∀ bytes,
          (t.root.get? (s.placeOf (below out (sidecarPath path))) = some (.file bytes) ↔
            s.root.get? (s.placeOf (below out (sidecarPath path))) = some (.file bytes)) := by
  have hnever : quiet.NeverStops := fun r => returns_state_iff.mpr (hquiet r)
  obtain ⟨hstill, hended, hcounted⟩ := (run_steady hnever (plan.context analyzer)
    (s.readablePages analyzer plan.docs paths) (new_alike progress progress logsDir)).from v outputs
      (by rw [hrun])
  rw [hrun] at hended hcounted
  obtain ⟨hdistinct, hpaths⟩ := Store.scan_spec hwell hscan
  have hoff : host.NeverStops := fun r => returns_state_iff.mpr (hhost r)
  have hdone := (annotateToEnd_steady conclude onTerminal hoff hout hpaths
    (new_alike progress progress logsDir) hstill hkept).from w
  generalize hrest : (annotateToEnd (Site.over host conclude onTerminal) analyzer plan paths
    (new progress logsDir)).run s w = done at hdone
  obtain ⟨⟨⟨outcome, r⟩, t⟩, w'⟩ := done
  obtain ⟨rfl, hfinal, hsame, text, rfl⟩ := hdone
  dsimp only at hfinal hsame
  -- the outputs are those of the pages that can be read
  have houtputs : outputs.map (·.page) = paths.filter (s.canRead plan.docs) :=
    still_readable_outputs hstill
  have hread : ∀ o ∈ outputs, o.page ∈ paths ∧ s.canRead plan.docs o.page = true := by
    intro o ho
    rw [← List.mem_filter, ← houtputs]
    exact List.mem_map.mpr ⟨o, ho, rfl⟩
  have hpages : ∀ o ∈ outputs, IsPagePath o.page := fun o ho => (hpaths _ (hread o ho).1).1
  have hnodup : (outputs.map (·.page)).Nodup := by
    rw [houtputs]
    exact hdistinct.filter _
  obtain ⟨hleaves, hholds⟩ := withSidecars_writeFile hpages hnodup hkept logsDir text
  have hothers : ∀ names bytes, (∀ o ∈ outputs, names ≠ s.placeOf (Store.sidecarOf out o)) →
      names ≠ s.placeOf (join logsDir metricsFile) →
        ((kept.writeFile (join logsDir metricsFile) text).2.root.get? names = some (.file bytes) ↔
          s.root.get? names = some (.file bytes)) := by
    intro names bytes hsidecar hmetrics
    refine hleaves.file_iff bytes ?_
    rintro (⟨o, ho, he⟩ | he)
    · exact hsidecar o ho he
    · exact hmetrics he
  refine ⟨r, _, w', hrest, ?_, hfinal, hended, hsame.trans hcounted.symm, ?_, ?_, hothers, ?_⟩
  · exact annotateAll_of_toEnd hrest
  · refine List.pairwise_map.mpr ((List.pairwise_map.mp hnodup).imp_of_mem ?_)
    intro a b ha hb hne he
    exact hne (Store.placeOf_sidecar_injective (hpages a ha) (hpages b hb) he)
  · intro o ho
    exact (hholds o ho).readText.trans (Store.textOf_toUTF8 _)
  · intro path hpath hunread
    have hnone : ∀ o ∈ outputs, path ≠ o.page := by
      intro o ho he
      rw [he, (hread o ho).2] at hunread
      cases hunread
    refine ⟨?_, fun bytes => hothers _ bytes ?_ ?_⟩
    · intro hcount
      have hfiles : r.metrics.untimed.files = _ := congrArg Metrics.files hsame
      exact still_readable_files analyzer paths (plan.context analyzer) progress logsDir hunread
        (hfiles ▸ hcount)
    · intro o ho he
      exact hnone o ho (Store.placeOf_sidecar_injective (hpaths path hpath).1 (hpages o ho) he)
    · intro he
      exact (s.writeFile_metrics logsDir text).2 (he ▸ Store.atSidecar (hpaths path hpath).1 out)

/-! ## A tree with a file that is no text -/

/-- A host whose clock goes on with every reading. -/
def tickingHost : Host (StateM Nat) :=
  ⟨fun n => (⟨n⟩, n + 1), fun _ => pure false, fun _ _ => pure true⟩

/-- An analyzer for one text. -/
def sampleAnalyzer : Analyzer :=
  ⟨sampleContext.trees, fun _ => [.startFenced "ts", .text "x)\n", .endCode], fun _ => true⟩

/-- A docs tree with a page in a directory and a page that is no text. -/
def sampleStore : Store where
  root := .directory [("work", .directory [("docs", .directory
    [("api", .directory [("a.md", .file "```ts\nx)\n```\n".toUTF8)]),
      ("raw.md", .file ⟨#[255]⟩)])])]
  workingDirectory := ["work"]

def samplePlan : Plan := ⟨"docs", some "site", sampleContext.registry, .standard fun _ => true⟩

theorem sampleStore_scan : sampleStore.scan "docs" [] = .ok ["api/a.md", "raw.md"] := by
  have hsorted : [["api", "a.md"], ["raw.md"]].Pairwise (namesLe · ·) := by decide +kernel
  change Except.ok (([["api", "a.md"], ["raw.md"]].mergeSort namesLe).map pathOf) = _
  rw [List.mergeSort_of_pairwise hsorted]
  rfl

/-- A page is annotated while the clock goes on, and the file that is no text is left
out. -/
theorem annotate_refines_run_docs :
    sampleStore.root.wellNamed = true ∧
      sampleStore.scan "docs" [] = .ok ["api/a.md", "raw.md"] ∧
      ∃ outputs ended kept r t n,
        (new (.new 0 false) "logs").run quietHost (samplePlan.context sampleAnalyzer)
          ((sampleStore.readablePages sampleAnalyzer "docs" ["api/a.md", "raw.md"]).map pure) () =
            ((.ok outputs, ended), ()) ∧
        sampleStore.withSidecars "site" outputs = .ok kept ∧
        annotateToEnd (Site.over tickingHost (fun _ => pure ()) (pure false)) sampleAnalyzer
          samplePlan ["api/a.md", "raw.md"] (new (.new 0 false) "logs") sampleStore 0 =
            (((.ok (), r), t), n) ∧
        outputs.map (·.page) = ["api/a.md"] ∧ r.metrics.untimed = ended.metrics.untimed ∧
        (∀ o ∈ outputs, t.readText (Store.sidecarOf "site" o) = .ok o.toJson.fileText) ∧
        "raw.md" ∉ r.metrics.files := by
  have hwell : sampleStore.root.wellNamed = true := by decide +kernel
  have hraw : sampleStore.canRead "docs" "raw.md" = false := by decide +kernel
  have hpages : ((new (.new 0 false) "logs").run quietHost (samplePlan.context sampleAnalyzer)
      ((sampleStore.readablePages sampleAnalyzer "docs" ["api/a.md", "raw.md"]).map
        pure) ()).1.1.toOption.map (·.map (·.page)) = some ["api/a.md"] := by decide +kernel
  have hwritten : (sampleStore.withSidecars "site" (((new (.new 0 false) "logs").run quietHost
      (samplePlan.context sampleAnalyzer) ((sampleStore.readablePages sampleAnalyzer "docs"
        ["api/a.md", "raw.md"]).map pure) ()).1.1.toOption.getD [])).isOk = true := by
    decide +kernel
  have hquiet : ∀ r v, (quietHost.stopAsked r v).1 = false := fun _ _ => rfl
  have hticking : ∀ r n, (tickingHost.stopAsked r n).1 = false := fun _ _ => rfl
  have hout : samplePlan.out = some "site" := rfl
  refine ⟨hwell, sampleStore_scan, ?_⟩
  generalize hrun : (new (.new 0 false) "logs").run quietHost (samplePlan.context sampleAnalyzer)
    ((sampleStore.readablePages sampleAnalyzer "docs" ["api/a.md", "raw.md"]).map pure) () = done
    at hpages hwritten
  obtain ⟨⟨_ | outputs, ended⟩, _⟩ := done
  · cases hpages
  dsimp only [Except.toOption, Option.getD_some] at hwritten
  cases hkept : sampleStore.withSidecars "site" outputs with
  | error fault =>
    rw [hkept] at hwritten
    cases hwritten
  | ok kept =>
    obtain ⟨r, t, n, hdone, _, _, _, hcounted, _, hkeeps, _, hleft⟩ :=
      annotate_refines_run hquiet hticking (fun _ => pure ()) (pure false) sampleAnalyzer hout
        hwell sampleStore_scan (.new 0 false) "logs" hrun hkept 0
    exact ⟨outputs, ended, kept, r, t, n, rfl, hkept, hdone, Option.some.inj hpages, hcounted,
      hkeeps, (hleft "raw.md" (.tail _ (.head _)) hraw).1⟩

end Command

end HoverTips
