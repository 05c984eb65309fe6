import HoverTips.Proofs.Markdown.Blocks

/-! # Pages in pieces

The events of a page come in pieces. A piece is a code block, from its start over its
texts to its end, or one event outside of code. Between two pieces the extraction is
always in the prose. So the blocks are read from the fenced pieces alone, and the
prose from the events outside of code alone (`foldl_pieces`). -/

namespace HoverTips.Markdown

/-- Whether an event neither starts nor ends a code block. -/
def Event.isOutside : Event → Bool
  | .startFenced _ | .startIndented | .endCode => false
  | _ => true

/-- A piece of a page. -/
inductive Piece where
  /-- One event outside of code. -/
  | outside (e : Event) (h : e.isOutside = true)
  /-- A fenced block with its info string and the texts in it. -/
  | fenced (info : String) (texts : List String)
  /-- An indented block with the texts in it. -/
  | indented (texts : List String)

namespace Piece

def events : Piece → List Event
  | outside e _ => [e]
  | fenced info texts => .startFenced info :: (texts.map .text ++ [.endCode])
  | indented texts => .startIndented :: (texts.map .text ++ [.endCode])

/-- The info string and the texts of a fenced block. -/
def fence? : Piece → Option (String × List String)
  | fenced info texts => some (info, texts)
  | outside _ _ | indented _ => none

/-- The event of a piece that is no code block. -/
def outside? : Piece → Option Event
  | outside e _ => some e
  | fenced _ _ | indented _ => none

end Piece

/-- The events of a page that comes in pieces. -/
def eventsOf (pieces : List Piece) : List Event := pieces.flatMap Piece.events

/-- The fenced blocks of a page, in order. -/
def fencesOf (pieces : List Piece) : List (String × List String) := pieces.filterMap Piece.fence?

/-- The events outside of code, in order. -/
def outsideOf (pieces : List Piece) : List Event := pieces.filterMap Piece.outside?

/-- The source of a block is the text in it without one line break at its end. -/
def IsSourceOf (text source : String) : Prop :=
  text = source ++ "\n" ∨ text = source ∧ text.toList.getLast? ≠ some '\n'

/-- What the block of a fenced piece has to be. -/
structure IsBlockOf (page : String) (index : Nat) (fence : String × List String)
    (b : CodeBlock) : Prop where
  id : b.id = page ++ "#" ++ toString index
  language : b.language = fenceTag fence.1
  source : IsSourceOf (String.join fence.2) b.source

theorem isSourceOf_dropEnding (text : String) : IsSourceOf text (Text.dropEnding "\n" text) := by
  unfold Text.dropEnding
  split
  · rename_i h
    obtain ⟨front, hfront⟩ := List.isSuffixOf_iff_suffix.mp h
    left
    apply String.toList_inj.mp
    simp [← hfront]
  · rename_i h
    right
    refine ⟨rfl, fun hlast => h (List.isSuffixOf_iff_suffix.mpr ?_)⟩
    obtain ⟨front, hfront⟩ := List.getLast?_eq_some_iff.mp hlast
    exact ⟨front, hfront.symm⟩

/-! ## Piece by piece -/

/-- The prose behind an event outside of code. -/
def Event.addTo (prose : String) : Event → String
  | .text s => prose ++ s
  | .softBreak => prose.push ' '
  | .hardBreak | .stop _ => Extraction.breakLine prose
  | _ => prose

/-- The block of a fence with a number. -/
def blockOf (page : String) (index : Nat) (fence : String × List String) : CodeBlock :=
  .ofFence (blockId page index) fence.1 (Text.dropEnding "\n" (String.join fence.2))

theorem isBlockOf_blockOf (page : String) (index : Nat) (fence : String × List String) :
    IsBlockOf page index fence (blockOf page index fence) :=
  ⟨rfl, rfl, isSourceOf_dropEnding _⟩

/-- The blocks of some fences, numbered from a number on. -/
def blocksFrom (page : String) (start : Nat) (fences : List (String × List String)) :
    List CodeBlock :=
  fences.mapIdx fun i fence => blockOf page (start + i) fence

theorem blocksFrom_append (page : String) (start : Nat) (front back : List (String × List String)) :
    blocksFrom page start (front ++ back) =
      blocksFrom page start front ++ blocksFrom page (start + front.length) back := by
  have hshift : (fun i fence => blockOf page (start + (i + front.length)) fence) =
      fun i fence => blockOf page (start + front.length + i) fence := by
    funext i fence
    rw [Nat.add_comm i, Nat.add_assoc]
  rw [blocksFrom, List.mapIdx_append, hshift]
  rfl

section foldl

variable {page : String} {blocks : List CodeBlock} {prose : String}

theorem step_outside {e : Event} (h : e.isOutside = true) :
    Extraction.step page ⟨.prose, blocks, prose⟩ e = ⟨.prose, blocks, e.addTo prose⟩ := by
  cases e with
  | startFenced info => cases h
  | startIndented => cases h
  | endCode => cases h
  | _ => rfl

theorem foldl_texts_fenced {info source : String} (texts : List String) :
    (texts.map Event.text).foldl (Extraction.step page) ⟨.fenced info source, blocks, prose⟩ =
      ⟨.fenced info (source ++ String.join texts), blocks, prose⟩ := by
  induction texts generalizing source with
  | nil => simp
  | cons s texts ih =>
    rw [List.map_cons, List.foldl_cons]
    simp [Extraction.step, Extraction.addText, ih, String.append_assoc]

theorem foldl_texts_indented (texts : List String) :
    (texts.map Event.text).foldl (Extraction.step page) ⟨.indented, blocks, prose⟩ =
      ⟨.indented, blocks, prose⟩ := by
  induction texts with
  | nil => rfl
  | cons s texts ih => exact ih

/-- A piece leaves the extraction in the prose. A fenced piece gives the next block,
and only an event outside of code adds to the prose. -/
theorem foldl_piece (p : Piece) :
    p.events.foldl (Extraction.step page) ⟨.prose, blocks, prose⟩ =
      ⟨.prose, blocks ++ blocksFrom page blocks.length p.fence?.toList,
        p.outside?.toList.foldl Event.addTo prose⟩ := by
  cases p with
  | outside e h => simp [Piece.events, step_outside h, Piece.fence?, blocksFrom, Piece.outside?]
  | fenced info texts =>
    rw [Piece.events, List.foldl_cons, List.foldl_append]
    simp [Extraction.step, foldl_texts_fenced, Extraction.closeCode, Piece.fence?, blocksFrom,
      blockOf, blockId, Piece.outside?]
  | indented texts =>
    rw [Piece.events, List.foldl_cons, List.foldl_append]
    simp [Extraction.step, foldl_texts_indented, Extraction.closeCode, Piece.fence?, blocksFrom,
      Piece.outside?]

theorem foldl_pieces (pieces : List Piece) :
    (eventsOf pieces).foldl (Extraction.step page) ⟨.prose, blocks, prose⟩ =
      ⟨.prose, blocks ++ blocksFrom page blocks.length (fencesOf pieces),
        (outsideOf pieces).foldl Event.addTo prose⟩ := by
  induction pieces generalizing blocks prose with
  | nil => simp [eventsOf, blocksFrom, fencesOf, outsideOf]
  | cons p pieces ih =>
    have hfences : fencesOf (p :: pieces) = p.fence?.toList ++ fencesOf pieces := by
      cases h : p.fence? <;> simp [fencesOf, h]
    have houtside : outsideOf (p :: pieces) = p.outside?.toList ++ outsideOf pieces := by
      cases h : p.outside? <;> simp [outsideOf, h]
    rw [eventsOf, List.flatMap_cons, List.foldl_append, foldl_piece, ← eventsOf, ih, hfences,
      houtside, blocksFrom_append, List.foldl_append, List.append_assoc]
    simp [blocksFrom]

end foldl

/-! ## The whole page -/

/-- The prose of some events outside of code. -/
def proseOf (events : List Event) : String := events.foldl Event.addTo ""

theorem extract_eventsOf (page : String) (pieces : List Piece) :
    extract page (eventsOf pieces) =
      ⟨.prose, blocksFrom page 0 (fencesOf pieces), proseOf (outsideOf pieces)⟩ := by
  rw [extract, Extraction.initial, foldl_pieces]
  rfl

/-- A page has one block for each fenced piece, numbered in their order, with the tag of
its info string and the texts in it, and none for an indented piece. A page with the
same events outside of code has the same prose, whatever is written in its code, and
one with the same fenced pieces has the same blocks, whatever stands around them. -/
theorem extract_pieces (page : String) (pieces : List Piece) :
    let extracted := extract page (eventsOf pieces)
    extracted.blocks.length = (fencesOf pieces).length ∧
      (∀ i (h : i < extracted.blocks.length) (h' : i < (fencesOf pieces).length),
        IsBlockOf page i (fencesOf pieces)[i] extracted.blocks[i]) ∧
      (∀ others, outsideOf others = outsideOf pieces →
        (extract page (eventsOf others)).prose = extracted.prose) ∧
      ∀ others, fencesOf others = fencesOf pieces →
        (extract page (eventsOf others)).blocks = extracted.blocks := by
  intro extracted
  have hextracted : extracted =
      ⟨.prose, blocksFrom page 0 (fencesOf pieces), proseOf (outsideOf pieces)⟩ :=
    extract_eventsOf page pieces
  rw [hextracted]
  refine ⟨List.length_mapIdx, ?_, ?_, ?_⟩
  · intro i h h'
    simp only [blocksFrom, List.getElem_mapIdx, Nat.zero_add]
    exact isBlockOf_blockOf page i _
  · intro others hothers
    rw [extract_eventsOf, hothers]
  · intro others hothers
    rw [extract_eventsOf, hothers]

end HoverTips.Markdown
