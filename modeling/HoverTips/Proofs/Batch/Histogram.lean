import Mathlib.Algebra.BigOperators.Group.List.Lemmas
import Mathlib.Algebra.Ring.Nat
import HoverTips.Proofs.Batch.Calls

/-! # Counters as a histogram

The counters of a batch say how many tooltips there are and, for every term, how
many of them stand under it, of which kinds, and how many are errors: `Counts`.
With the files and the failures they say all of a log that they can: `Tells`.
One call keeps that up, and so do many. -/

namespace HoverTips

/-! ## Terms -/

/-- The statistics of some tooltips. -/
def TermStats.ofRecords (rs : List TooltipRecord) : TermStats where
  count := rs.length
  kinds := TooltipKind.all.filter fun k => rs.any (·.kind == k)
  errors := rs.countP (·.kind == .token .error)

/-- The statistics of a term: there are none without tooltips. -/
def TermStats.of? (rs : List TooltipRecord) : Option TermStats :=
  if rs.isEmpty then none else some (.ofRecords rs)

namespace TermStats

theorem of?_eq_some_iff {rs : List TooltipRecord} {s : TermStats} :
    of? rs = some s ↔ rs ≠ [] ∧ s = ofRecords rs := by
  cases rs <;> simp [of?, eq_comm]

theorem ofRecords_concat (rs : List TooltipRecord) (x : TooltipRecord) :
    ofRecords (rs ++ [x]) = (ofRecords rs).add x.kind := by
  have hold : ∀ k, (ofRecords rs).kinds.contains k = rs.any (·.kind == k) := by
    intro k
    rw [List.contains_eq_mem, Bool.eq_iff_iff]
    simp [ofRecords, TooltipKind.mem_all]
  simp only [add, hold]
  simp only [ofRecords, mk.injEq]
  refine ⟨List.length_append, ?_, ?_⟩
  · refine List.filter_congr fun k _ => ?_
    simp [Bool.or_comm, Bool.beq_comm]
  · by_cases h : x.kind = .token .error <;> simp [h]

theorem of?_concat (rs : List TooltipRecord) (x : TooltipRecord) :
    of? (rs ++ [x]) = some (((of? rs).getD .empty).add x.kind) := by
  have hfull : of? (rs ++ [x]) = some (ofRecords (rs ++ [x])) := by simp [of?]
  rw [hfull, ofRecords_concat]
  cases rs <;> rfl

/-- The order of the tooltips does not matter. -/
theorem of?_perm {rs xs : List TooltipRecord} (h : rs.Perm xs) : of? rs = of? xs := by
  have hstats : ofRecords rs = ofRecords xs := by
    simp only [ofRecords, h.length_eq, h.countP_eq, h.any_eq]
  rw [of?, of?, hstats, h.isEmpty_eq]

theorem mem_kinds_iff (rs : List TooltipRecord) (name : String) :
    name ∈ (ofRecords rs).kinds.map TooltipKind.name ↔ ∃ x ∈ rs, x.kind.name = name := by
  simp [ofRecords, TooltipKind.mem_all]

/-- There are errors under a term exactly if its kinds have the one of errors. -/
theorem errors_pos_iff (rs : List TooltipRecord) :
    0 < (ofRecords rs).errors ↔ "error" ∈ (ofRecords rs).kinds.map TooltipKind.name := by
  have hname : ∀ k : TooltipKind, k.name = "error" ↔ k = .token .error := by
    intro k
    cases k with
    | token t => cases t <;> decide
    | parser => decide
    | global => decide
  rw [mem_kinds_iff]
  simp [ofRecords, hname, List.countP_pos_iff]

end TermStats

/-! ## Counters -/

namespace Metrics

/-- The counters count some tooltips, in all and by term. -/
structure Counts (rs : List TooltipRecord) (m : Metrics) : Prop where
  processed : m.processed = rs.length
  term : ∀ t, m.terms[t]? = TermStats.of? (rs.filter (·.term == t))

theorem empty_counts : empty.Counts [] where
  processed := rfl
  term t := by simp [empty, TermStats.of?]

theorem Counts.record {rs : List TooltipRecord} {m : Metrics} (h : m.Counts rs)
    (x : TooltipRecord) : (m.record x).Counts (rs ++ [x]) where
  processed := by simp [Metrics.record, h.processed]
  term t := by
    by_cases ht : x.term = t
    · simp [Metrics.record, List.filter_append, ht, h.term, TermStats.of?_concat]
    · simp [Metrics.record, Std.TreeMap.getElem?_alter, List.filter_append, ht, h.term]

theorem Counts.recordAll {rs : List TooltipRecord} {m : Metrics} (h : m.Counts rs)
    (xs : List TooltipRecord) : (m.recordAll xs).Counts (rs ++ xs) := by
  induction xs generalizing rs m with
  | nil => simpa [Metrics.recordAll] using h
  | cons x xs ih =>
    have hrest := ih (h.record x)
    rwa [List.append_assoc] at hrest

/-- Counters that stand for the same tooltips in another order are the same. -/
theorem Counts.of_perm {rs xs : List TooltipRecord} {m n : Metrics} (hm : m.Counts rs)
    (hn : n.Counts xs) (h : rs.Perm xs) :
    m.processed = n.processed ∧ ∀ t : String, m.terms[t]? = n.terms[t]? := by
  constructor
  · rw [hm.processed, hn.processed, h.length_eq]
  · intro t
    rw [hm.term, hn.term, TermStats.of?_perm (h.filter _)]

/-- The terms that are counted are those of the tooltips. -/
theorem Counts.mem_keys {rs : List TooltipRecord} {m : Metrics} (h : m.Counts rs) (t : String) :
    t ∈ m.terms.keys ↔ t ∈ rs.map (·.term) := by
  rw [Std.TreeMap.mem_keys, Std.TreeMap.mem_iff_isSome_getElem?, h.term]
  simp [Option.isSome_iff_exists, TermStats.of?_eq_some_iff]

/-- The counts of the terms add up to all tooltips. -/
theorem Counts.sum {rs : List TooltipRecord} {m : Metrics} (h : m.Counts rs) :
    (m.terms.toList.map (·.2.count)).sum = m.processed := by
  have hcount : ∀ p ∈ m.terms.toList, p.2.count = (rs.map (·.term)).count p.1 := by
    intro p hp
    have hstats := Std.TreeMap.mem_toList_iff_getElem?_eq_some.mp hp
    rw [h.term, TermStats.of?_eq_some_iff] at hstats
    rw [hstats.2, List.count, List.countP_map, List.countP_eq_length_filter]
    rfl
  have hnodup : m.terms.keys.Nodup := by
    refine Std.TreeMap.distinct_keys.imp fun {s t} hne he => hne ?_
    rw [he]
    exact Std.ReflCmp.compare_self
  have hkeys : m.terms.keys.Perm (rs.map (·.term)).dedup :=
    (List.perm_ext_iff_of_nodup hnodup (List.nodup_dedup _)).mpr fun t => by
      rw [h.mem_keys, List.mem_dedup]
  calc (m.terms.toList.map (·.2.count)).sum
      = ((m.terms.toList.map Prod.fst).map ((rs.map (·.term)).count ·)).sum := by
        rw [List.map_map, List.map_congr_left hcount]
        rfl
    _ = ((rs.map (·.term)).dedup.map ((rs.map (·.term)).count ·)).sum := by
        rw [Std.TreeMap.map_fst_toList_eq_keys]
        exact (hkeys.map _).sum_eq
    _ = m.processed := by
        rw [List.sum_map_count_dedup_eq_length, List.length_map, h.processed]

/-! ## What the counters say of a log -/

/-- The tooltips that the calls of a log handed back. -/
def emitted (log : List Entry) : List TooltipRecord := log.flatMap (·.answer.records)

/-- The counters say what a log says: they count its tooltips, they have the
files of its calls, also of those that failed, and they keep the failures of its
calls in order. -/
structure Tells (ctx : Context) (log : List Entry) (m : Metrics) : Prop where
  counts : m.Counts (emitted log)
  files : ∀ file, file ∈ m.files ↔ ∃ e ∈ log, e.call.file = file
  distinct : m.files.Nodup
  errors : m.errors = log.flatMap (·.failures ctx)

variable {ctx : Context} {log : List Entry} {m : Metrics}

theorem empty_tells (ctx : Context) : empty.Tells ctx [] where
  counts := empty_counts
  files file := by simp [empty]
  distinct := List.nodup_nil
  errors := rfl

theorem recordErrors_eq (errors : List MetricsError) (m : Metrics) :
    m.recordErrors errors = { m with errors := m.errors ++ errors } := by
  induction errors generalizing m with
  | nil => simp [recordErrors]
  | cons e errors ih =>
    have hstep : m.recordErrors (e :: errors) = (m.recordError e.term e.detail).recordErrors errors :=
      rfl
    rw [hstep, ih]
    simp [recordError]

theorem recordAll_other (records : List TooltipRecord) (m : Metrics) :
    (m.recordAll records).files = m.files ∧ (m.recordAll records).errors = m.errors := by
  induction records generalizing m with
  | nil => exact ⟨rfl, rfl⟩
  | cons x records ih => exact ih (m.record x)

theorem mem_fileSeen (file other : String) (m : Metrics) :
    other ∈ (m.fileSeen file).files ↔ other ∈ m.files ∨ file = other := by
  unfold fileSeen
  split
  · rename_i h
    have hmem : file ∈ m.files := List.contains_iff_mem.mp h
    constructor
    · exact .inl
    · rintro (hold | rfl)
      · exact hold
      · exact hmem
  · simp [or_comm, eq_comm]

theorem nodup_fileSeen (file : String) (h : m.files.Nodup) : (m.fileSeen file).files.Nodup := by
  unfold fileSeen
  split
  · exact h
  · rename_i hnew
    exact List.nodup_cons.mpr ⟨fun hmem => hnew (List.contains_iff_mem.mpr hmem), h⟩

/-- Noting an entry adds it to the log. -/
theorem Tells.note (h : m.Tells ctx log) (now : Instant) (e : Entry) :
    (m.note ctx now e).Tells ctx (log ++ [e]) := by
  have hseen : (((m.start now).fileSeen e.call.file).recordErrors (e.failures ctx)).Counts
      (emitted log) := by
    rw [recordErrors_eq]
    unfold fileSeen
    split <;> exact ⟨h.counts.processed, h.counts.term⟩
  have hother := recordAll_other e.answer.records
    (((m.start now).fileSeen e.call.file).recordErrors (e.failures ctx))
  rw [recordErrors_eq] at hother
  constructor
  case counts =>
    have hall := hseen.recordAll e.answer.records
    rwa [emitted, List.flatMap_append, List.flatMap_singleton]
  case files =>
    intro file
    rw [Metrics.note, recordErrors_eq, hother.1, mem_fileSeen]
    simp [start, h.files, or_and_right, exists_or]
  case distinct =>
    rw [Metrics.note, recordErrors_eq, hother.1]
    exact nodup_fileSeen _ h.distinct
  case errors =>
    rw [Metrics.note, recordErrors_eq, hother.2, List.flatMap_append, List.flatMap_singleton,
      ← h.errors]
    unfold fileSeen
    split <;> rfl

end Metrics

namespace Runner

/-- As long as a runner is not finalized, its counters say what the calls on it
say. -/
theorem perform_tells {ctx : Context} {log : List Entry} (calls : List (Readings × Call))
    {r : Runner} (hopen : r.finalized = false) (h : r.metrics.Tells ctx log) :
    (perform ctx calls r).2.finalized = false ∧
      (perform ctx calls r).2.metrics.Tells ctx (log ++ (perform ctx calls r).1) := by
  induction calls generalizing r log with
  | nil => exact ⟨hopen, by simpa [perform] using h⟩
  | cons c calls ih =>
    obtain ⟨hafter, hmetrics⟩ := answer_open ctx c.1 c.2 hopen
    have hstep := h.note c.1.entered (r.entry ctx c.1 c.2)
    rw [← hmetrics] at hstep
    have hrest := ih hafter hstep
    rw [perform]
    rwa [List.append_assoc] at hrest

end Runner

end HoverTips
