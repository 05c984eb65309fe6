import HoverTips.Batch.Run
import HoverTips.Proofs.Batch.Effects
import HoverTips.Proofs.Batch.Pages
import HoverTips.Proofs.Block.Distinct
import HoverTips.Proofs.Markdown.Blocks

/-! # A batch meets no duplicate id

A duplicate id is the one failure that ends a batch. On pages that come from
documents it does not happen, provided that every tree has one token for a span
and that digests tell apart what the tooltips of a page are about. Each page
starts without ids, its blocks bring ids of their own, and those of triggers and
notes begin with another letter. -/

namespace HoverTips

/-- What is found in the blocks of a page, under their ids. -/
def Context.analyses (ctx : Context) (page : Markdown.Page) : List (String × Analysis) :=
  page.blocks.map fun b => (b.id, ctx.analysis b)

/-- The tooltips of a page can be told apart: no two tokens of a walked tree lie
over the same span, and digests do not collide. -/
structure Context.Separates (ctx : Context) (page : Markdown.Page) : Prop where
  tokens : ∀ b ∈ page.blocks, ∀ tree ∈ ctx.trees.walked? b.source b.language,
    Tree.TokensApart (.ofSource b.source.toList) tree
  digests : NoCollisions (ctx.analyses page)

namespace Runner

variable {m : Type → Type} [Monad m] [LawfulMonad m] {host : Host m} {ctx : Context}

theorem processBlock_fine (clock : Readings) {file : String} {b : Markdown.CodeBlock} {r : Runner}
    (hnodup : (blockIds b.id (ctx.analysis b)).Nodup)
    (hnew : ∀ id ∈ blockIds b.id (ctx.analysis b), id ∉ (r.pageOf file).ids) :
    Fine file r (fun id => id ∈ blockIds b.id (ctx.analysis b) ∨ idLetter id = some 'p')
      (r.processBlock ctx clock file b) := by
  rw [processBlock]
  exact recordBlock_fine clock hnodup hnew

/-- Blocks with ids of their own are processed without a duplicate. -/
theorem processBlocks_returns {all : List (String × Analysis)} (hall : NoCollisions all)
    (file : String) {blocks : List Markdown.CodeBlock}
    (hfound : ∀ b ∈ blocks, (b.id, ctx.analysis b) ∈ all ∧ (ctx.analysis b).Distinct)
    (hids : blocks.Pairwise fun b c => b.id ≠ c.id) {r : Runner}
    (hnew : ∀ b ∈ blocks, ∀ id ∈ blockIds b.id (ctx.analysis b), id ∉ (r.pageOf file).ids) :
    Returns (r.processBlocks host ctx file blocks) fun out =>
      (∃ outputs, out.1 = .ok outputs) ∧
        ∀ other, other ≠ file → out.2.pageOf other = r.pageOf other := by
  induction blocks generalizing r with
  | nil =>
    rw [processBlocks]
    exact .pure ⟨⟨[], rfl⟩, fun _ _ => rfl⟩
  | cons b blocks ih =>
    rw [List.forall_mem_cons] at hfound hnew
    rw [List.pairwise_cons] at hids
    obtain ⟨⟨hb, hdistinct⟩, hrest⟩ := hfound
    rw [processBlocks]
    refine (Returns.any _).bind fun stop _ => ?_
    split
    · exact .pure ⟨⟨[], rfl⟩, fun _ _ => rfl⟩
    refine (Returns.any _).bind fun clock _ => ?_
    have hfine := processBlock_fine clock (blockIds_nodup hall hb hdistinct) hnew.1
    generalize r.processBlock ctx clock file b = out at hfine ⊢
    obtain ⟨outcome, after⟩ := out
    obtain ⟨⟨output, hok⟩, hafter, hothers⟩ := hfine
    obtain rfl : outcome = .ok output := hok
    -- the blocks that are left have other ids than this one and its note
    have hnew' : ∀ c ∈ blocks, ∀ id ∈ blockIds c.id (ctx.analysis c), id ∉ (after.pageOf file).ids := by
      intro c hc id hid hmem
      obtain ⟨hcm, hcd⟩ := hrest c hc
      obtain hold | hblock | hnote := hafter id hmem
      · exact hnew.2 c hc id hid hold
      · exact blockIds_disjoint hall hb hcm (hids.1 c hc) hdistinct hcd hblock hid
      · rcases idLetter_blockIds hid with h | h <;> rw [hnote] at h <;> cases h
    refine (ih hrest hids.2 hnew').bind fun later hlater => ?_
    obtain ⟨⟨outputs, hok'⟩, hothers'⟩ := hlater
    refine .pure ⟨⟨output :: outputs, by rw [hok']; rfl⟩, fun other hne => ?_⟩
    rw [← hothers other hne]
    exact hothers' other hne

/-- A page is processed without a duplicate when it has no ids yet. -/
theorem processPage_returns {page : Markdown.Page} (h : ctx.Separates page)
    (hids : page.blocks.Pairwise fun b c => b.id ≠ c.id) {r : Runner}
    (hempty : r.pageOf page.path = .empty page.path) :
    Returns (r.processPage host ctx page) fun out =>
      (∃ output, out.1 = .ok output) ∧
        ∀ other, other ≠ page.path → out.2.pageOf other = r.pageOf other := by
  have hfound : ∀ b ∈ page.blocks, (b.id, ctx.analysis b) ∈ ctx.analyses page ∧
      (ctx.analysis b).Distinct := fun b hb =>
    ⟨List.mem_map.mpr ⟨b, hb, rfl⟩, analyzeBlock_distinct _ _ _ _ (h.tokens b hb)⟩
  rw [processPage]
  refine (Returns.any _).bind fun clock _ => ?_
  have hfine := processProse_fine ctx clock page.path page.prose r
  generalize r.processProse ctx clock page.path page.prose = out at hfine ⊢
  obtain ⟨outcome, after⟩ := out
  obtain ⟨⟨tooltips, hok⟩, hafter, hothers⟩ := hfine
  obtain rfl : outcome = .ok tooltips := hok
  have hnew : ∀ b ∈ page.blocks, ∀ id ∈ blockIds b.id (ctx.analysis b),
      id ∉ (after.pageOf page.path).ids := by
    intro b hb id hid hmem
    obtain hold | htrigger := hafter id hmem
    · rw [hempty] at hold
      cases hold
    · rcases idLetter_blockIds hid with h | h <;> rw [htrigger] at h <;> cases h
  refine (processBlocks_returns h.digests page.path hfound hids hnew).bind fun out hout => ?_
  obtain ⟨⟨outputs, hok⟩, hothers'⟩ := hout
  refine .pure ⟨⟨⟨page.path, tooltips, outputs⟩, by rw [hok]; rfl⟩, fun other hne => ?_⟩
  rw [← hothers other hne]
  exact hothers' other hne

/-- Pages of different files are processed without a duplicate. -/
theorem processPages_returns {docs : List (String × List Markdown.Event)}
    {take : String × List Markdown.Event → m Markdown.Page}
    (hpaths : docs.Pairwise fun d e => d.1 ≠ e.1)
    (htake : ∀ d ∈ docs, Returns (take d) (· = .ofEvents d.1 d.2))
    (hpages : ∀ d ∈ docs, ctx.Separates (.ofEvents d.1 d.2)) {r : Runner}
    (hempty : ∀ d ∈ docs, r.pageOf d.1 = .empty d.1) :
    Returns (r.processPages host ctx (docs.map take)) fun out =>
      ∃ outputs, out.1 = .ok outputs := by
  induction docs generalizing r with
  | nil =>
    rw [List.map_nil, processPages]
    exact .pure ⟨[], rfl⟩
  | cons d docs ih =>
    rw [List.forall_mem_cons] at htake hpages hempty
    rw [List.pairwise_cons] at hpaths
    rw [List.map_cons, processPages]
    refine htake.1.bind fun page hpage => ?_
    subst hpage
    refine (Returns.any _).bind fun stop _ => ?_
    split
    · exact .pure ⟨[], rfl⟩
    refine (processPage_returns hpages.1 (Markdown.ofEvents_ids_nodup d.1 d.2) hempty.1).bind
      fun out hout => ?_
    obtain ⟨outcome, after⟩ := out
    obtain ⟨⟨output, hok⟩, hothers⟩ := hout
    obtain rfl : outcome = .ok output := hok
    have hempty' : ∀ e ∈ docs, after.pageOf e.1 = .empty e.1 := fun e he =>
      (hothers e.1 (hpaths.1 e he).symm).trans (hempty.2 e he)
    refine (ih hpaths.2 htake.2 hpages.2 hempty').bind fun later hlater => ?_
    obtain ⟨outputs, hok⟩ := hlater
    exact .pure ⟨output :: outputs, by rw [hok]; rfl⟩

/-- A batch over pages of different files never ends with a duplicate id, on any
host, as long as the tooltips of each page can be told apart. -/
theorem run_returns_ok (host : Host m) (ctx : Context) (progress : Progress) (logsDir : String)
    (docs : List (String × List Markdown.Event))
    (take : String × List Markdown.Event → m Markdown.Page)
    (hpaths : docs.Pairwise fun d e => d.1 ≠ e.1)
    (htake : ∀ d ∈ docs, Returns (take d) (· = .ofEvents d.1 d.2))
    (hpages : ∀ d ∈ docs, ctx.Separates (.ofEvents d.1 d.2)) :
    Returns ((new progress logsDir).run host ctx (docs.map take)) fun out =>
      ∃ outputs, out.1 = .ok outputs := by
  rw [run]
  refine (processPages_returns hpaths htake hpages fun d _ => pageOf_new _ _ _).bind
    fun out hout => ?_
  obtain ⟨outcome, after⟩ := out
  obtain ⟨outputs, hok⟩ := hout
  obtain rfl : outcome = .ok outputs := hok
  exact (Returns.any _).bind fun _ _ => .pure ⟨outputs, rfl⟩

/-! ## A page with two blocks alike -/

/-- A phrase and two blocks that use a name and have a bracket too many. -/
def sampleDoc : String × List Markdown.Event :=
  ("guide.md", [.text "DD", .startFenced "ts", .text "x)\n", .endCode, .startFenced "ts",
    .text "x)\n", .endCode])

/-- The tree of the blocks. -/
def sampleTree : Tree.Node :=
  .mk ⟨"program", true, false, false, ⟨0, 17⟩, []⟩
    [.mk ⟨"identifier", true, false, false, ⟨9, 10⟩, []⟩ [],
      .mk ⟨"ERROR", true, true, false, ⟨10, 11⟩, []⟩ []]

def sampleContext : Context where
  trees := fun _ => .ok fun _ => some sampleTree
  registry := Glossary.build (fun _ => true) ⟨[("x", ⟨"variable", "", Palette.webApi.color⟩)]⟩
  triggers := .standard fun _ => true

theorem sample_noCollisions :
    NoCollisions (sampleContext.analyses (.ofEvents sampleDoc.1 sampleDoc.2)) := by
  have hspans : ∀ p ∈ sampleContext.analyses (.ofEvents sampleDoc.1 sampleDoc.2),
      ∀ q ∈ sampleContext.analyses (.ofEvents sampleDoc.1 sampleDoc.2),
        ∀ t ∈ p.2.tokens, ∀ u ∈ q.2.tokens,
          Digest.ofSpan p.1 t.span.start t.span.stop = Digest.ofSpan q.1 u.span.start u.span.stop →
            p.1 = q.1 ∧ t.span = u.span := by
    decide +kernel
  have hmessages : ∀ p ∈ sampleContext.analyses (.ofEvents sampleDoc.1 sampleDoc.2),
      ∀ q ∈ sampleContext.analyses (.ofEvents sampleDoc.1 sampleDoc.2),
        ∀ e ∈ p.2.errors, ∀ f ∈ q.2.errors,
          Digest.ofMessage p.1 e.span.start e.span.stop (e.message.getD "") =
              Digest.ofMessage q.1 f.span.start f.span.stop (f.message.getD "") →
            p.1 = q.1 ∧ e.span = f.span ∧ e.message = f.message := by
    decide +kernel
  refine ⟨fun hb hc ht hu _ _ he => hspans _ hb _ hc _ ht _ hu he, ?_⟩
  intro b c m n a d e f hb hc he hf hm hn hdigest
  have := hmessages _ hb _ hc _ he _ hf
  rw [hm, hn] at this
  simpa using this hdigest

theorem sample_separates : sampleContext.Separates (.ofEvents sampleDoc.1 sampleDoc.2) where
  tokens := by
    intro b _ tree htree
    obtain ⟨flavor, _, h⟩ := Option.bind_eq_some_iff.mp htree
    split at h
    · cases h
    · obtain rfl : sampleTree = tree := Option.some.inj h
      have hspans : sampleTree.nodes.Pairwise fun m n => m.span ≠ n.span := by decide
      exact hspans.imp fun hne _ _ => hne
  digests := sample_noCollisions

/-- On a host without effects, whose clock stands still, the batch hands back
its output. -/
theorem run_returns_ok_sample :
    sampleContext.Separates (.ofEvents sampleDoc.1 sampleDoc.2) ∧
      ∃ outputs, ((new (.new 0 false) "logs").run (m := Id)
        ⟨⟨0⟩, fun _ => false, fun _ _ => true⟩ sampleContext
          [.ofEvents sampleDoc.1 sampleDoc.2]).1 = .ok outputs := by
  have hpages : ∀ d ∈ [sampleDoc], sampleContext.Separates (.ofEvents d.1 d.2) := by
    intro d hd
    obtain rfl := List.mem_singleton.mp hd
    exact sample_separates
  have hrun := run_returns_ok (m := Id) ⟨⟨0⟩, fun _ => false, fun _ _ => true⟩ sampleContext
    (.new 0 false) "logs" [sampleDoc] (fun d => .ofEvents d.1 d.2) (List.pairwise_singleton _ _)
    (fun _ _ => returns_id_iff.mpr rfl) hpages
  have hok := returns_id_iff.mp hrun
  exact ⟨sample_separates, hok⟩

end Runner

end HoverTips
