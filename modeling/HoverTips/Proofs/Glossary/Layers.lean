import Mathlib.Data.Finset.Dedup
import Mathlib.Data.Finset.Card
import HoverTips.Proofs.Token.Search

/-! # Glossaries in layers

A glossary is filled layer by layer, each with its rows in order, from nothing or from
tables. All of it comes to one list of entries (`addLayers_eq`), of which the first one
for a name counts, if the name has the shape of one. The search for the names in a
source is made of the same entries, so what it finds are the names that can be looked
up, unless the engine refuses it. -/

namespace HoverTips

/-- What is added to a glossary at one time. -/
inductive Layer where
  /-- Rows that share a palette. -/
  | table (t : DefinitionTable)
  /-- Terms with definitions of their own. -/
  | terms (entries : List (String × Definition))

/-- The names of a layer with their definitions, in row order: a row of a table has a type
and a documentation of its own, and the colours of the table. -/
def Layer.given : Layer → List (String × Definition)
  | table ⟨palette, rows⟩ =>
    rows.map fun ⟨name, typeName, documentation⟩ =>
      (name, ⟨typeName, documentation, palette.color⟩)
  | terms entries => entries

def IsLetter (c : Char) : Prop := 'A' ≤ c ∧ c ≤ 'Z' ∨ 'a' ≤ c ∧ c ≤ 'z'

def IsDigit (c : Char) : Prop := '0' ≤ c ∧ c ≤ '9'

/-- The shape of a name: a letter or an underscore, then letters, digits and
underscores. -/
def HasNameShape (name : String) : Prop :=
  ∃ c cs, name.toList = c :: cs ∧ (IsLetter c ∨ c = '_') ∧
    ∀ d ∈ cs, IsLetter d ∨ IsDigit d ∨ d = '_'

/-- Among some entries the first one for a name. -/
def FirstFor (entries : List (String × Definition)) (name : String) (d : Definition) : Prop :=
  ∃ front back, entries = front ++ (name, d) :: back ∧ ∀ entry ∈ front, entry.1 ≠ name

namespace Glossary

def addLayer (g : Glossary) : Layer → Glossary
  | .table t => g.insertTable t
  | .terms entries => g.insertAll entries

/-! ## Names -/

theorem isNameHead_iff {c : Char} : isNameHead c = true ↔ IsLetter c ∨ c = '_' := by
  unfold isNameHead IsLetter Char.isAlpha Char.isUpper Char.isLower
  simp [Char.le_def]

theorem isNameTail_iff {c : Char} : isNameTail c = true ↔ IsLetter c ∨ IsDigit c ∨ c = '_' := by
  unfold isNameTail IsLetter IsDigit Char.isAlpha Char.isUpper Char.isLower Char.isDigit
  simp [Char.le_def, or_assoc]

theorem isName_iff {name : String} : isName name = true ↔ HasNameShape name := by
  unfold isName HasNameShape
  cases name.toList with
  | nil => simp
  | cons c cs => simp [isNameHead_iff, isNameTail_iff]

instance (name : String) : Decidable (HasNameShape name) := decidable_of_iff _ isName_iff

/-! ## First entries -/

theorem lookup_insert (g : Glossary) (added : String) (d : Definition) (name : String) :
    (g.insert added d).lookup name =
      (g.lookup name).or (if isName added && name == added then some d else none) := by
  unfold insert
  split
  · rename_i hnew
    rw [Bool.and_eq_true] at hnew
    rw [lookup, List.lookup_append, lookup, hnew.1, Bool.true_and]
    cases hname : name == added <;> simp [List.lookup_cons, hname]
  · rename_i hold
    cases hname : isName added && name == added with
    | false => simp
    | true =>
      rw [Bool.and_eq_true, beq_iff_eq] at hname
      obtain ⟨hshape, rfl⟩ := hname
      cases hknown : g.lookup name with
      | none => simp [hshape, hknown] at hold
      | some _ => simp

theorem lookup_insertAll (g : Glossary) (entries : List (String × Definition)) (name : String) :
    (g.insertAll entries).lookup name =
      (g.lookup name).or (if isName name then entries.lookup name else none) := by
  induction entries generalizing g with
  | nil => simp [insertAll]
  | cons entry entries ih =>
    have hstep : g.insertAll (entry :: entries) =
        (g.insert entry.1 entry.2).insertAll entries := rfl
    rw [hstep, ih, lookup_insert, Option.or_assoc, List.lookup_cons]
    congr 1
    cases hname : name == entry.1 with
    | true =>
      rw [beq_iff_eq] at hname
      cases hshape : isName name <;> simp [← hname, hshape]
    | false => simp

theorem lookup_eq_some_iff_firstFor {entries : List (String × Definition)} {name : String}
    {d : Definition} : entries.lookup name = some d ↔ FirstFor entries name d := by
  simp only [List.lookup_eq_some_iff, FirstFor, bne_iff_ne, ne_comm]

/-- What a glossary filled from nothing knows. -/
theorem lookup_filled (entries : List (String × Definition)) (name : String) :
    (empty.insertAll entries).lookup name =
      if isName name then entries.lookup name else none := by
  rw [lookup_insertAll]
  rfl

theorem lookup_filled_isSome_iff {entries : List (String × Definition)} {name : String} :
    ((empty.insertAll entries).lookup name).isSome = true ↔
      HasNameShape name ∧ name ∈ entries.map Prod.fst := by
  have hentries : (entries.lookup name).isSome = true ↔ name ∈ entries.map Prod.fst :=
    lookup_isSome_iff (g := ⟨entries⟩)
  rw [lookup_filled, ← isName_iff, ← hentries]
  cases isName name <;> simp

/-! ## Names are distinct -/

def Distinct (g : Glossary) : Prop := (g.entries.map Prod.fst).Nodup

theorem empty_distinct : empty.Distinct := List.nodup_nil

theorem Distinct.insert {g : Glossary} (h : g.Distinct) (name : String) (d : Definition) :
    (g.insert name d).Distinct := by
  unfold Glossary.insert
  split
  · rename_i hnew
    rw [Bool.and_eq_true] at hnew
    have hfresh : name ∉ g.entries.map Prod.fst := by
      rw [← lookup_isSome_iff]
      simpa using hnew.2
    have hnodup : ((g.entries.map Prod.fst).concat name).Nodup := h.concat hfresh
    rwa [Distinct, List.map_append, List.map_singleton, ← List.concat_eq_append]
  · exact h

theorem Distinct.insertAll {g : Glossary} (h : g.Distinct) (entries : List (String × Definition)) :
    (g.insertAll entries).Distinct := by
  unfold Glossary.insertAll
  induction entries generalizing g with
  | nil => exact h
  | cons entry entries ih => exact ih (h.insert entry.1 entry.2)

theorem Distinct.size_eq {g : Glossary} (h : g.Distinct) {names : Finset String}
    (hnames : ∀ name, name ∈ names ↔ (g.lookup name).isSome = true) : g.size = names.card := by
  have hset : names = (g.entries.map Prod.fst).toFinset := by
    ext name
    rw [hnames, lookup_isSome_iff, List.mem_toFinset]
  rw [hset, List.toFinset_card_of_nodup h, List.length_map, size]

/-! ## Layers -/

theorem insertAll_append (g : Glossary) (front back : List (String × Definition)) :
    g.insertAll (front ++ back) = (g.insertAll front).insertAll back := by
  simp [insertAll]

theorem addLayer_eq (g : Glossary) (layer : Layer) :
    g.addLayer layer = g.insertAll layer.given := by
  cases layer with
  | table t => rfl
  | terms entries => rfl

theorem addLayers_eq (g : Glossary) (layers : List Layer) :
    layers.foldl addLayer g = g.insertAll (layers.flatMap Layer.given) := by
  induction layers generalizing g with
  | nil => rfl
  | cons layer layers ih =>
    rw [List.foldl_cons, ih, List.flatMap_cons, insertAll_append, addLayer_eq]

/-- A glossary of words has a token for a name exactly where it stands between characters
that are no word characters. -/
theorem Worded.mem_tokensIn_iff {g : Glossary} (h : g.Worded) {source : List Char} {t : Token} :
    t ∈ g.tokensIn source ↔
      ∃ before name after, source = before ++ String.toList name ++ after ∧
        (g.lookup name).isSome = true ∧ (∀ c ∈ before.getLast?, Text.isWord c = false) ∧
        (∀ c ∈ after.head?, Text.isWord c = false) ∧
        t = wordToken (Text.byteLength before) name.toList := by
  rw [Glossary.mem_tokensIn_iff]
  constructor
  · intro ⟨_, word, ⟨before, after, hsource, rfl, _, _, hbefore, hafter⟩, hknown, ht⟩
    refine ⟨before, String.ofList word, after, ?_, hknown, hbefore, hafter, ?_⟩
    · rwa [String.toList_ofList]
    · rwa [String.toList_ofList]
  · intro ⟨before, name, after, hsource, hknown, hbefore, hafter, ht⟩
    obtain ⟨hne, hall⟩ := h name (lookup_isSome_iff.mp hknown)
    refine ⟨_, name.toList, ⟨before, after, hsource, rfl, hne, hall, hbefore, hafter⟩, ?_, ht⟩
    rwa [String.ofList_toList]

/-- A name has a token in some source exactly when it can be looked up. -/
theorem Worded.found_iff {g : Glossary} (h : g.Worded) {name : String} :
    (∃ source, ∃ t ∈ g.tokensIn source, t.text = name) ↔ (g.lookup name).isSome = true := by
  constructor
  · intro ⟨source, t, ht, hname⟩
    obtain ⟨_, found, _, _, hfound, _, _, rfl⟩ := h.mem_tokensIn_iff.mp ht
    have htext : found = name := by simpa [wordToken] using hname
    rwa [← htext]
  · intro hname
    refine ⟨name.toList, wordToken 0 name.toList, ?_, by simp [wordToken]⟩
    rw [h.mem_tokensIn_iff]
    exact ⟨[], name, [], by simp, hname, by simp, by simp, rfl⟩

/-- A registry that is filled from some tables, or from none, and with layers behind
them defines a name as the first entry for it says, if the name has the shape of one,
and not otherwise; its size is the number of such names. If the engine takes the search
for its names, the scan finds what this search finds, and this is every name that can be
looked up and no other, always as a whole word, so in full where another name starts
with it or it starts with another. If the engine refuses the search, the scan finds
nothing. -/
theorem layers_define (engine : Text.Engine) (tables : List DefinitionTable)
    (layers : List Layer) :
    let g := layers.foldl addLayer (tables.foldl insertTable empty)
    let r := g.build engine
    let given := (tables.map Layer.table ++ layers).flatMap Layer.given
    (∀ name d, r.lookup name = some d ↔ HasNameShape name ∧ FirstFor given name d) ∧
      r.size = ((given.map Prod.fst).toFinset.filter HasNameShape).card ∧
      (r.Searched →
        (∀ source, scanGlossary r source = g.search source) ∧
        (∀ source t, t ∈ scanGlossary r source ↔
          ∃ before name after, source = before ++ String.toList name ++ after ∧
            (r.lookup name).isSome = true ∧ (∀ c ∈ before.getLast?, Text.isWord c = false) ∧
            (∀ c ∈ after.head?, Text.isWord c = false) ∧
            t = wordToken (Text.byteLength before) name.toList) ∧
        ∀ name, (∃ source, ∃ t ∈ scanGlossary r source, t.text = name) ↔
          (r.lookup name).isSome = true) ∧
      (¬r.Searched → ∀ source, scanGlossary r source = []) := by
  intro g r given
  have htables : tables.foldl insertTable empty =
      (tables.map Layer.table).foldl addLayer empty := by
    rw [List.foldl_map]
    rfl
  have hg : g = empty.insertAll given := by
    simp only [g, given, htables, addLayers_eq, List.flatMap_append, insertAll_append]
  have hworded : g.Worded := by
    rw [hg]
    exact empty_worded.insertAll given
  have hlookup : r.toGlossary = g := rfl
  refine ⟨?_, ?_, fun hsearched => ?_, fun hrefused source => ?_⟩
  · intro name d
    rw [hlookup, hg, lookup_filled, ← isName_iff, ← lookup_eq_some_iff_firstFor]
    cases isName name <;> simp
  · have hdistinct : g.Distinct := by
      rw [hg]
      exact empty_distinct.insertAll given
    apply hdistinct.size_eq
    intro name
    rw [hg, lookup_filled_isSome_iff, Finset.mem_filter, List.mem_toFinset, and_comm]
  · simp only [hsearched.scan_eq]
    exact ⟨fun source => (hworded.search_eq source).symm, fun source t => hworded.mem_tokensIn_iff,
      fun name => hworded.found_iff⟩
  · exact if_neg fun hsearchable => hrefused fun _ => hsearchable

/-- A table with a name, the beginning of it and a word that is none, and a term that
comes too late: each name is found in full, and reads as the table says. -/
theorem layers_define_prefix :
    let table : DefinitionTable :=
      ⟨.builtin, [⟨"MapReduce", "function", "Maps first."⟩, ⟨"1st", "", ""⟩,
        ⟨"Map", "class", "Keys and values."⟩]⟩
    let late : List (String × Definition) := [("Map", ⟨"plan", "", Palette.project.color⟩)]
    let r := ((empty.insertTable table).addLayer (.terms late)).build fun _ => true
    r.Searched ∧
      r.lookup "Map" = some ⟨"class", "Keys and values.", ⟨"#e5c07b", "#2f2a1e"⟩⟩ ∧
      r.lookup "1st" = none ∧ r.size = 2 ∧
      wordToken 10 "Map".toList ∈ scanGlossary r "MapReduce(Map, 1st)".toList ∧
      wordToken 0 "Map".toList ∉ scanGlossary r "MapReduce(Map, 1st)".toList := by
  intro table late r
  have hsearched : r.Searched := build_searched_iff.mpr fun _ => rfl
  obtain ⟨hdefined, hsize, hfound, -⟩ :=
    layers_define (fun _ => true) [table] [.terms late]
  obtain ⟨-, hmem, -⟩ := hfound hsearched
  refine ⟨hsearched, (hdefined _ _).mpr ⟨by decide, [_, _], [_], rfl, by decide⟩, ?_,
    hsize.trans (by decide +kernel), ?_, by decide +kernel⟩
  · refine Option.eq_none_iff_forall_ne_some.mpr fun d hd => ?_
    exact absurd ((hdefined "1st" d).mp hd).1 (by decide)
  · refine (hmem _ _).mpr ⟨"MapReduce(".toList, "Map", ", 1st)".toList, by decide, by decide,
      ?_, ?_, by decide⟩
    · intro c hc
      cases hc
      rfl
    · intro c hc
      cases hc
      rfl

end Glossary

end HoverTips
