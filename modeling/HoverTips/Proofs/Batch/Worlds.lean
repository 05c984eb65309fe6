import HoverTips.Proofs.Batch.Log

/-! # Batches in a world

The world around a batch is a state that every operation of the host may change
and look at. Here the steps of a batch are written out: the state of the world
goes from one to the next. On the still host there is no state to hand on. -/

namespace HoverTips.Runner

variable {σ : Type}

theorem bind_apply {α β : Type} (x : StateM σ α) (f : α → StateM σ β) (w : σ) :
    (x >>= f) w = f (x w).1 (x w).2 := rfl

theorem ite_apply {α : Type} (c : Prop) [Decidable c] (x y : StateM σ α) (w : σ) :
    (if c then x else y : StateM σ α) w = if c then x w else y w := by
  split <;> rfl

variable (host : Host (StateM σ)) (ctx : Context)

theorem processBlocks_cons (file : String) (b : Markdown.CodeBlock)
    (blocks : List Markdown.CodeBlock) (r : Runner) (w : σ) :
    r.processBlocks host ctx file (b :: blocks) w =
      let asked := host.stopAsked r w
      if asked.1 then ((.ok [], r), asked.2)
      else
        let clock := readings host asked.2
        match r.processBlock ctx clock.1 file b with
        | (.error e, r) => ((.error e, r), clock.2)
        | (.ok output, r) =>
          let later := r.processBlocks host ctx file blocks clock.2
          ((later.1.1.map (output :: ·), later.1.2), later.2) := by
  rw [processBlocks, bind_apply, ite_apply, bind_apply]
  refine if_congr Iff.rfl rfl ?_
  dsimp only
  rcases r.processBlock ctx _ file b with ⟨e | output, after⟩
  · rfl
  · rfl

theorem processPage_eq (page : Markdown.Page) (r : Runner) (w : σ) :
    r.processPage host ctx page w =
      let clock := readings host w
      match r.processProse ctx clock.1 page.path page.prose with
      | (.error e, r) => ((.error e, r), clock.2)
      | (.ok tooltips, r) =>
        let later := r.processBlocks host ctx page.path page.blocks clock.2
        ((later.1.1.map (⟨page.path, tooltips, ·⟩), later.1.2), later.2) := by
  rw [processPage, bind_apply]
  dsimp only
  rcases r.processProse ctx _ page.path page.prose with ⟨e | tooltips, after⟩
  · rfl
  · rfl

theorem processPages_cons (take : StateM σ Markdown.Page) (later : List (StateM σ Markdown.Page))
    (r : Runner) (w : σ) :
    r.processPages host ctx (take :: later) w =
      let page := take w
      let asked := host.stopAsked r page.2
      if asked.1 then ((.ok [], r), asked.2)
      else
        match r.processPage host ctx page.1 asked.2 with
        | ((.error e, r), w) => ((.error e, r), w)
        | ((.ok output, r), w) =>
          let rest := r.processPages host ctx later w
          ((rest.1.1.map (output :: ·), rest.1.2), rest.2) := by
  rw [processPages, bind_apply, bind_apply, ite_apply, bind_apply]
  refine if_congr Iff.rfl rfl ?_
  rcases r.processPage host ctx _ _ with ⟨⟨e | output, after⟩, v⟩
  · rfl
  · rfl

theorem run_eq (pages : List (StateM σ Markdown.Page)) (r : Runner) (w : σ) :
    r.run host ctx pages w =
      match r.processPages host ctx pages w with
      | ((.error e, r), w) => ((.error e, r), w)
      | ((.ok outputs, r), w) =>
        let ended := r.finalize host w
        ((.ok outputs, ended.1.2), ended.2) := by
  rw [run, bind_apply]
  rcases r.processPages host ctx pages w with ⟨⟨e | outputs, after⟩, v⟩
  · rfl
  · rfl

theorem run_fst (pages : List (StateM σ Markdown.Page)) (r : Runner) (w : σ) :
    (r.run host ctx pages w).1.1 = (r.processPages host ctx pages w).1.1 := by
  rw [run_eq]
  rcases r.processPages host ctx pages w with ⟨⟨e | outputs, after⟩, v⟩
  · rfl
  · rfl

theorem finalize_open {r : Runner} (h : r.finalized = false) (w : σ) :
    (r.finalize host w).1.2 = (r.close (host.now w).1).2 := by
  have hopen : ¬r.finalized = true := by simp [h]
  rw [finalize, ite_apply, if_neg hopen, bind_apply]
  dsimp only
  rw [bind_apply, ite_apply]
  split <;> rfl

/-! ## On the still host -/

theorem still_processBlocks_cons (file : String) (b : Markdown.CodeBlock)
    (blocks : List Markdown.CodeBlock) (r : Runner) :
    r.processBlocks Host.still ctx file (b :: blocks) =
      match r.processBlock ctx ⟨⟨0⟩, ⟨0⟩⟩ file b with
      | (.error e, r) => (.error e, r)
      | (.ok output, r) =>
        let later : Except DuplicateId (List BlockOutput) × Runner :=
          r.processBlocks Host.still ctx file blocks
        (later.1.map (output :: ·), later.2) := rfl

theorem still_processPage (page : Markdown.Page) (r : Runner) :
    r.processPage Host.still ctx page =
      match r.processProse ctx ⟨⟨0⟩, ⟨0⟩⟩ page.path page.prose with
      | (.error e, r) => (.error e, r)
      | (.ok tooltips, r) =>
        let later : Except DuplicateId (List BlockOutput) × Runner :=
          r.processBlocks Host.still ctx page.path page.blocks
        (later.1.map (⟨page.path, tooltips, ·⟩), later.2) := rfl

theorem still_processPages_cons (page : Markdown.Page) (later : List Markdown.Page) (r : Runner) :
    r.processPages Host.still ctx (page :: later) =
      match (r.processPage Host.still ctx page : Except DuplicateId PageOutput × Runner) with
      | (.error e, r) => (.error e, r)
      | (.ok output, r) =>
        let rest : Except DuplicateId (List PageOutput) × Runner :=
          r.processPages Host.still ctx later
        (rest.1.map (output :: ·), rest.2) := rfl

end HoverTips.Runner
