import HoverTips.Proofs.Batch.Log
import HoverTips.Proofs.Tooltip.Complete
import HoverTips.Proofs.Batch.Unique

/-! # A batch counts what it hands back

Calls and whole pages, in any order and whether they go well or not, leave
counters that are the histogram of the tooltips handed back, with the files of
all calls and the failures in the order of the calls. -/

namespace HoverTips

theorem Call.assemble_complete (ctx : Context) (c : Call) (p : PageIds) :
    PageIds.AllComplete (c.assemble ctx p).1 := by
  cases c with
  | block file b => exact PageIds.assembleBlock_complete _ _ _ p
  | prose file text => exact PageIds.acceptTriggers_complete _ p

namespace Runner

theorem entry_complete (ctx : Context) (clock : Readings) (c : Call) (r : Runner) :
    ∀ x ∈ (r.entry ctx clock c).answer.records, x.Complete := by
  have hall := c.assemble_complete ctx (r.pageOf c.file)
  rw [entry, answer_fst]
  cases h : (c.assemble ctx (r.pageOf c.file)).1 with
  | error e => simp [Except.map, Call.answer_records_error]
  | ok a => simpa [Except.map, Call.answer_records_ok] using hall a h

theorem perform_complete (ctx : Context) (calls : List (Readings × Call)) (r : Runner) :
    ∀ x ∈ Metrics.emitted (perform ctx calls r).1, x.Complete := by
  induction calls generalizing r with
  | nil => simp [perform, Metrics.emitted]
  | cons c calls ih =>
    intro x hx
    rw [perform, Metrics.emitted, List.flatMap_cons, List.mem_append] at hx
    exact hx.elim (entry_complete ctx c.1 c.2 r x) (ih _ x)

theorem Leads.complete {ctx : Context} {r s : Runner} {log : List Entry} (h : Leads ctx r log s) :
    ∀ x ∈ Metrics.emitted log, x.Complete := by
  obtain ⟨calls, h⟩ := h
  simpa only [h] using perform_complete ctx calls r

variable {m : Type → Type} [Monad m] [LawfulMonad m]

/-- After any calls and pages on a new runner, its counters say what the log of
their calls says. Every tooltip is counted under its first trigger, the counts of
the terms add up to all tooltips, the kinds of a term are those of its tooltips,
and a term has errors exactly if one of its kinds is that of errors. -/
theorem jobs_counted (host : Host m) (ctx : Context) (progress : Progress) (logsDir : String)
    (jobs : List Job) :
    Prod.fst <$> logJobs host ctx jobs (new progress logsDir) =
        inTurn (job host ctx) jobs (new progress logsDir) ∧
      Returns (logJobs host ctx jobs (new progress logsDir)) fun out =>
        out.1.2.finalized = false ∧ out.1.2.metrics.Tells ctx out.2 ∧
          (∀ x ∈ Metrics.emitted out.2, x.trigger.head? = some x.term) ∧
          (out.1.2.metrics.terms.toList.map (·.2.count)).sum = out.1.2.metrics.processed ∧
          ∀ t stats, out.1.2.metrics.terms[t]? = some stats →
            (∀ name, name ∈ stats.kinds.map TooltipKind.name ↔
              ∃ x ∈ Metrics.emitted out.2, x.term = t ∧ x.kind.name = name) ∧
            (0 < stats.errors ↔ "error" ∈ stats.kinds.map TooltipKind.name) := by
  refine ⟨fst_logJobs host ctx jobs _, ?_⟩
  refine (logJobs_leads host ctx jobs _).imp fun out hleads => ?_
  obtain ⟨hopen, htells⟩ := hleads.tells rfl (Metrics.empty_tells ctx)
  rw [List.nil_append] at htells
  refine ⟨hopen, htells, ?_, htells.counts.sum, ?_⟩
  · intro x hx
    exact (hleads.complete x hx).head?_trigger
  · intro t stats hstats
    rw [htells.counts.term, TermStats.of?_eq_some_iff] at hstats
    obtain ⟨_, rfl⟩ := hstats
    refine ⟨fun name => ?_, TermStats.errors_pos_iff _⟩
    rw [TermStats.mem_kinds_iff]
    simp [and_assoc]

/-! ## A page that fails -/

/-- A phrase, a call on another file, and a page whose second block has the id of
its first. -/
def sampleJobs : List Job :=
  [.call (.prose "b.md" "DD"),
    .page ⟨"a.md", [⟨"a.md#0", "ts", "x)"⟩, ⟨"a.md#0", "ts", "x)"⟩], ""⟩]

/-- The page fails at its second block, and the tooltips of the first and the
phrase are counted. -/
theorem jobs_counted_failure :
    LawfulMonad Id ∧
      let out := logJobs Host.still sampleContext sampleJobs (new (.new 0 false) "logs")
      out.1.2.metrics.processed = 4 ∧ out.1.2.metrics.Tells sampleContext out.2 := by
  have hcounted := jobs_counted Host.still sampleContext (.new 0 false) "logs" sampleJobs
  have htells := (returns_id_iff.mp hcounted.2).2.1
  exact ⟨inferInstance, by decide +kernel, htells⟩

end Runner

end HoverTips
