import HoverTips.Proofs.Batch.Log

/-! # Operations of a runner

Beside jobs a runner can be asked to work on a whole batch, which ends when it
goes well, and to end at once. An operation does nothing to a runner but make
calls and end it, and it ends a runner once: when it was ended before, the
operation is its work on pages alone. -/

namespace HoverTips

/-- What a runner can be asked for: a job, a batch of pages, or the end. -/
inductive Operation (m : Type → Type) where
  | job (j : Job)
  | run (pages : List (m Markdown.Page))
  | finalize

/-- The end of the batch is marked when the runner is finalized. -/
def Runner.Marked (r : Runner) : Prop := r.finalized = true → r.metrics.finished.isSome = true

/-- Metrics with a mark for the end say the same at all times. -/
theorem Metrics.artifact_eq {metrics : Metrics} (h : metrics.finished.isSome = true)
    (now later : Instant) : metrics.artifact now = metrics.artifact later := by
  obtain ⟨finished, hfinished⟩ := Option.isSome_iff_exists.mp h
  have helapsed : metrics.elapsed now = metrics.elapsed later := by
    simp only [elapsed, hfinished, Option.getD_some]
  rw [artifact, artifact, helapsed]

namespace Runner

variable {m : Type → Type} [Monad m]

/-- Does an operation. -/
def operate (host : Host m) (ctx : Context) : Operation m → Runner → m (Reply × Runner)
  | .job j, r => job host ctx j r
  | .run pages, r => do
    let (outputs, r) ← r.run host ctx pages
    return (.run outputs, r)
  | .finalize, r => do
    let (path, r) ← r.finalize host
    return (.finalize path, r)

/-- Does the work of an operation, and does not end the batch. -/
def work (host : Host m) (ctx : Context) : Operation m → Runner → m (Reply × Runner)
  | .job j, r => job host ctx j r
  | .run pages, r => do
    let (outputs, r) ← r.processPages host ctx pages
    return (.run outputs, r)
  | .finalize, r => return (.finalize none, r)

variable {ctx : Context} {r s : Runner}

/-! ## Steps in order -/

variable [LawfulMonad m]

/-- What every step keeps and what it replies, all steps in order keep and reply. -/
theorem inTurn_returns {α β : Type} {step : α → Runner → m (β × Runner)} (kept : Runner → Prop)
    (replied : α → β → Prop)
    (hstep : ∀ x r, kept r → Returns (step x r) fun out => kept out.2 ∧ replied x out.1)
    (xs : List α) (h : kept r) :
    Returns (inTurn step xs r) fun out => kept out.2 ∧ List.Forall₂ replied xs out.1 := by
  induction xs generalizing r with
  | nil =>
    rw [inTurn]
    exact .pure ⟨h, .nil⟩
  | cons x xs ih =>
    rw [inTurn]
    refine (hstep x r h).bind fun out hout => ?_
    refine (ih hout.1).bind fun rest hrest => .pure ?_
    exact ⟨hrest.1, .cons hout.2 hrest.2⟩

/-- Steps that agree on what is kept agree in order. -/
theorem inTurn_congr {α β : Type} {step other : α → Runner → m (β × Runner)}
    (kept : Runner → Prop) (hstep : ∀ x r, kept r → Returns (step x r) fun out => kept out.2)
    (hsame : ∀ x r, kept r → step x r = other x r) (xs : List α) (h : kept r) :
    inTurn step xs r = inTurn other xs r := by
  induction xs generalizing r with
  | nil => rfl
  | cons x xs ih =>
    rw [inTurn, inTurn, ← hsame x r h]
    refine (hstep x r h).bind_congr fun out hout => ?_
    dsimp only
    rw [ih hout]

/-! ## The end of a batch -/

theorem close_marked (now : Instant) (r : Runner) : (r.close now).2.Marked := by
  intro _
  simp [close, Metrics.freeze]

/-- What an operation can do to a runner: make calls, and then end it if it has
not ended before. -/
def Moves (ctx : Context) (r after : Runner) : Prop :=
  ∃ log s, Leads ctx r log s ∧
    (after = s ∨ s.finalized = false ∧ ∃ now, after = (s.close now).2)

theorem Moves.final (h : Moves ctx r s) (hfinal : r.finalized = true) :
    s = { r with pages := s.pages } := by
  obtain ⟨log, mid, hleads, rfl | ⟨hopen, _⟩⟩ := h
  · exact hleads.final hfinal
  · rw [hleads.finalized, hfinal] at hopen
    cases hopen

theorem Moves.after {log : List Entry} {t : Runner} (h : Moves ctx s t)
    (hleads : Leads ctx r log s) : Moves ctx r t := by
  obtain ⟨more, mid, hmore, hend⟩ := h
  exact ⟨log ++ more, mid, hleads.append hmore, hend⟩

theorem Moves.marked (h : Moves ctx r s) (hmarked : r.Marked) : s.Marked := by
  obtain ⟨log, mid, hleads, rfl | ⟨_, now, rfl⟩⟩ := h
  · intro hfinal
    rw [hleads.finalized] at hfinal
    rw [hleads.final hfinal]
    exact hmarked hfinal
  · exact close_marked now mid

omit [LawfulMonad m] in
/-- A runner that is finalized is not ended again. -/
theorem finalize_again (host : Host m) (h : r.finalized = true) :
    r.finalize host = pure (none, r) := by
  rw [finalize, if_pos h]

theorem finalize_moves (host : Host m) (ctx : Context) (r : Runner) :
    Returns (r.finalize host) fun out => out.2.finalized = true ∧ Moves ctx r out.2 := by
  by_cases h : r.finalized = true
  · rw [finalize_again host h]
    exact .pure ⟨h, [], r, .nil, .inl rfl⟩
  · rw [finalize, if_neg h]
    refine (Returns.any _).bind fun now _ => ?_
    have hclosed : (r.close now).2.finalized = true ∧ Moves ctx r (r.close now).2 :=
      ⟨rfl, [], r, .nil, .inr ⟨by simpa using h, now, rfl⟩⟩
    dsimp only
    refine (Returns.any _).bind fun saved _ => ?_
    split <;> exact .pure hclosed

/-! ## Operations -/

theorem processPages_leads (host : Host m) (ctx : Context) (pages : List (m Markdown.Page))
    (r : Runner) :
    Returns (r.processPages host ctx pages) fun out => ∃ log, Leads ctx r log out.2 := by
  rw [← fst_logPages]
  exact Returns.map ((logPages_logged host ctx pages r).imp fun out hout => ⟨out.2, hout.leads⟩)

theorem work_leads (host : Host m) (ctx : Context) (op : Operation m) (r : Runner) :
    Returns (work host ctx op r) fun out => ∃ log, Leads ctx r log out.2 := by
  cases op with
  | job j =>
    rw [work, ← fst_logJob]
    exact Returns.map ((logJob_leads host ctx j r).imp fun out hout => ⟨out.2, hout⟩)
  | run pages =>
    exact (processPages_leads host ctx pages r).bind fun out hout => .pure hout
  | finalize => exact .pure ⟨[], .nil⟩

theorem operate_moves (host : Host m) (ctx : Context) (op : Operation m) (r : Runner) :
    Returns (operate host ctx op r) fun out => Moves ctx r out.2 := by
  cases op with
  | job j =>
    exact (work_leads host ctx (.job j) r).imp fun out ⟨log, hleads⟩ => ⟨log, _, hleads, .inl rfl⟩
  | run pages =>
    rw [operate, run, bind_assoc]
    refine (processPages_leads host ctx pages r).bind fun out hout => ?_
    obtain ⟨log, hleads⟩ := hout
    obtain ⟨outcome, s⟩ := out
    cases outcome with
    | error e =>
      rw [pure_bind]
      exact .pure ⟨log, s, hleads, .inl rfl⟩
    | ok outputs =>
      rw [bind_assoc]
      refine (finalize_moves host ctx s).bind fun ended hended => ?_
      rw [pure_bind]
      exact .pure (hended.2.after hleads)
  | finalize =>
    exact (finalize_moves host ctx r).bind fun out hout => .pure hout.2

/-- Work on a runner that is finalized leaves it as it is but for its pages. -/
theorem work_final (host : Host m) (ctx : Context) (op : Operation m) (h : r.finalized = true) :
    Returns (work host ctx op r) fun out =>
      out.2 = { r with pages := out.2.pages } ∧ (op = .finalize → out.1 = .finalize none) := by
  cases op with
  | finalize => exact .pure ⟨rfl, fun _ => rfl⟩
  | job j =>
    refine (work_leads host ctx (.job j) r).imp fun out ⟨log, hleads⟩ => ⟨hleads.final h, ?_⟩
    intro hop
    cases hop
  | run pages =>
    refine (work_leads host ctx (.run pages) r).imp fun out ⟨log, hleads⟩ => ⟨hleads.final h, ?_⟩
    intro hop
    cases hop

/-- On a runner that is finalized, an operation is its work on pages. -/
theorem operate_final (host : Host m) (op : Operation m) (h : r.finalized = true) :
    operate host ctx op r = work host ctx op r := by
  cases op with
  | job j => rfl
  | run pages =>
    rw [operate, work, run, bind_assoc]
    refine (processPages_leads host ctx pages r).bind_congr fun out hout => ?_
    obtain ⟨log, hleads⟩ := hout
    obtain ⟨outcome, s⟩ := out
    have hfinal : s.finalized = true := hleads.finalized.trans h
    cases outcome with
    | error e => simp only [pure_bind]
    | ok outputs => simp only [finalize_again host hfinal, pure_bind]
  | finalize => rw [operate, work, finalize_again host h, pure_bind]

theorem inTurn_operate_final (host : Host m) (ops : List (Operation m)) (h : r.finalized = true) :
    inTurn (operate host ctx) ops r = inTurn (work host ctx) ops r := by
  refine inTurn_congr (fun s => s.finalized = true) ?_ ?_ ops h
  · intro op s hs
    rw [operate_final host op hs]
    exact (work_leads host ctx op s).imp fun out ⟨log, hleads⟩ => hleads.finalized.trans hs
  · exact fun op s hs => operate_final host op hs

/-- Operations on a runner that is finalized leave it as it is but for its pages,
and its end replies nothing. -/
theorem inTurn_final (host : Host m) (ctx : Context) (ops : List (Operation m))
    (h : r.finalized = true) :
    Returns (inTurn (operate host ctx) ops r) fun out =>
      out.2 = { r with pages := out.2.pages } ∧
        List.Forall₂ (fun op reply => op = .finalize → reply = .finalize none) ops out.1 := by
  refine inTurn_returns (r := r) (fun s => s = { r with pages := s.pages })
    (fun (op : Operation m) (reply : Reply) => op = .finalize → reply = .finalize none)
    (fun op s hs => ?_) ops rfl
  have hfinal : s.finalized = true := by
    rw [hs]
    exact h
  rw [operate_final host op hfinal]
  refine (work_final host ctx op hfinal).imp fun out hout => ⟨?_, hout.2⟩
  rw [hout.1, hs]

/-- A runner that was reached by operations has the end of its batch marked when
it is finalized. -/
theorem inTurn_marked (host : Host m) (ctx : Context) (progress : Progress) (logsDir : String)
    (ops : List (Operation m)) :
    Returns (inTurn (operate host ctx) ops (new progress logsDir)) fun out => out.2.Marked := by
  have hnew : (new progress logsDir).Marked := by
    intro h
    cases h
  refine (inTurn_returns Marked (fun _ _ => True) (fun op r hr => ?_) ops hnew).imp
    fun out hout => hout.1
  exact (operate_moves host ctx op r).imp fun out hmoves => ⟨hmoves.marked hr, trivial⟩

theorem inTurn_work_finalized (host : Host m) (ctx : Context) (ops : List (Operation m))
    (r : Runner) :
    Returns (inTurn (work host ctx) ops r) fun out => out.2.finalized = r.finalized := by
  refine (inTurn_returns (fun s => s.finalized = r.finalized) (fun _ _ => True)
    (fun op s hs => ?_) ops rfl).imp fun out hout => hout.1
  exact (work_leads host ctx op s).imp fun out ⟨log, hleads⟩ =>
    ⟨hleads.finalized.trans hs, trivial⟩

end Runner

end HoverTips
