import HoverTips.Proofs.Files.Changes
import HoverTips.Proofs.Files.Paths

/-! # Pages of a docs tree

In a store whose directories have plain names, each its own, a scan finds every
page once, and the path it gives for a page leads to the file. The side-cars of
pages go to places of their own, where neither a page nor the metrics are. -/

namespace HoverTips.Files

mutual

/-- Whether the names in every directory are plain, each its own. -/
def Entry.wellNamed : Entry → Bool
  | .file _ => true
  | .directory entries => wellNamedIn entries

/-- Whether the names of some entries are plain, each its own, and so on below. -/
def wellNamedIn : List (String × Entry) → Bool
  | [] => true
  | (name, e) :: rest =>
    isPlain name && !(rest.map Prod.fst).contains name && e.wellNamed && wellNamedIn rest

end

theorem wellNamedIn_cons {name : String} {e : Entry} {rest : List (String × Entry)} :
    wellNamedIn ((name, e) :: rest) = true ↔
      isPlain name = true ∧ name ∉ rest.map Prod.fst ∧ e.wellNamed = true ∧
        wellNamedIn rest = true := by
  simp [wellNamedIn, and_assoc]

theorem wellNamed_of_lookup {entries : List (String × Entry)} {name : String} {e : Entry}
    (h : wellNamedIn entries = true) (hlookup : entries.lookup name = some e) :
    e.wellNamed = true := by
  induction entries with
  | nil => cases hlookup
  | cons entry entries ih =>
    obtain ⟨n, first⟩ := entry
    obtain ⟨_, _, hfirst, hrest⟩ := wellNamedIn_cons.mp h
    rw [List.lookup_cons] at hlookup
    split at hlookup
    · cases hlookup
      exact hfirst
    · exact ih hrest hlookup

theorem Entry.wellNamed_of_get? {e found : Entry} {names : List String} (h : e.wellNamed = true)
    (hget : e.get? names = some found) : found.wellNamed = true := by
  induction names generalizing e with
  | nil =>
    cases hget
    exact h
  | cons name names ih =>
    rw [get?_cons] at hget
    obtain ⟨next, hnext, hfound⟩ := Option.bind_eq_some_iff.mp hget
    cases e with
    | file bytes => cases hnext
    | directory entries =>
      rw [wellNamed] at h
      exact ih (wellNamed_of_lookup h hnext) hfound

/-! ## What a scan finds -/

/-- Plain names, the last of which is a page's. -/
structure IsPage (front : List String) (last : String) : Prop where
  plain : ∀ name ∈ front ++ [last], isPlain name = true
  last : isPageName last = true

/-- The path of a page, relative to the root of its tree. -/
def IsPagePath (path : String) : Prop :=
  ∃ front last, path = pathOf (front ++ [last]) ∧ IsPage front last

/-- The names end like those of a side-car. -/
def AtSidecar (names : List String) : Prop := ∃ front page, names = front ++ [sidecarName page]

theorem IsPage.sidecar {front : List String} {last : String} (h : IsPage front last) :
    ∀ name ∈ front ++ [sidecarName last], isPlain name = true := by
  have hplain := h.plain
  rw [List.forall_mem_append] at hplain ⊢
  refine ⟨hplain.1, ?_⟩
  intro name hname
  rw [List.mem_singleton.mp hname]
  exact isPlain_sidecarName h.last (hplain.2 last (by simp))

theorem IsPage.below {front : List String} {last name : String} (h : IsPage front last)
    (hname : isPlain name = true) : IsPage (name :: front) last :=
  ⟨List.forall_mem_cons.mpr ⟨hname, h.plain⟩, h.last⟩

theorem head_of_mem_pagesAs {name : String} {e : Entry} {names : List String}
    (h : names ∈ e.pagesAs name) : ∃ later, names = name :: later := by
  cases e with
  | file bytes =>
    rw [Entry.pagesAs] at h
    split at h
    · exact ⟨[], List.mem_singleton.mp h⟩
    · cases h
  | directory entries =>
    rw [Entry.pagesAs] at h
    obtain ⟨later, _, rfl⟩ := List.mem_map.mp h
    exact ⟨later, rfl⟩

theorem head_of_mem_pagesOf {entries : List (String × Entry)} {names : List String}
    (h : names ∈ pagesOf entries) :
    ∃ name ∈ entries.map Prod.fst, ∃ later, names = name :: later := by
  induction entries with
  | nil => simp [pagesOf] at h
  | cons entry entries ih =>
    obtain ⟨name, e⟩ := entry
    rw [pagesOf] at h
    rcases List.mem_append.mp h with h | h
    · obtain ⟨later, rfl⟩ := head_of_mem_pagesAs h
      exact ⟨name, by simp, later, rfl⟩
    · obtain ⟨other, hother, later, rfl⟩ := ih h
      exact ⟨other, List.mem_cons_of_mem _ hother, later, rfl⟩

mutual

/-- The names of a page lead to a file. -/
theorem Entry.mem_pagesAs {name : String} (hname : isPlain name = true) {names : List String} :
    ∀ {e : Entry}, e.wellNamed = true → names ∈ e.pagesAs name →
      ∃ later bytes front last, names = name :: later ∧ e.sightAt? later = some (.file bytes) ∧
        names = front ++ [last] ∧ IsPage front last
  | .file bytes, _, h => by
    rw [Entry.pagesAs] at h
    split at h
    · rename_i hpage
      obtain rfl := List.mem_singleton.mp h
      exact ⟨[], bytes, [], name, rfl, rfl, rfl, by simpa using hname, hpage⟩
    · cases h
  | .directory entries, hwell, h => by
    rw [Entry.pagesAs] at h
    rw [Entry.wellNamed] at hwell
    obtain ⟨later, hlater, rfl⟩ := List.mem_map.mp h
    obtain ⟨bytes, front, last, hsight, rfl, hpage⟩ := mem_pagesOf hwell hlater
    exact ⟨_, bytes, name :: front, last, rfl, hsight, rfl, hpage.below hname⟩

theorem mem_pagesOf {names : List String} :
    ∀ {entries : List (String × Entry)}, wellNamedIn entries = true → names ∈ pagesOf entries →
      ∃ bytes front last, (Entry.directory entries).sightAt? names = some (.file bytes) ∧
        names = front ++ [last] ∧ IsPage front last
  | [], _, h => by simp [pagesOf] at h
  | (name, e) :: rest, hwell, h => by
    obtain ⟨hname, hnew, he, hrest⟩ := wellNamedIn_cons.mp hwell
    rw [pagesOf] at h
    rcases List.mem_append.mp h with h | h
    · obtain ⟨later, bytes, front, last, rfl, hsight, hnames, hpage⟩ := Entry.mem_pagesAs hname he h
      refine ⟨bytes, front, last, ?_, hnames, hpage⟩
      rw [Entry.sightAt?, Entry.get?_cons, Entry.members, List.lookup_cons_self]
      exact hsight
    · -- the name that a page of the rest starts with is another one
      obtain ⟨other, hother, later, rfl⟩ := head_of_mem_pagesOf h
      obtain ⟨bytes, front, last, hsight, hnames, hpage⟩ := mem_pagesOf hrest h
      refine ⟨bytes, front, last, ?_, hnames, hpage⟩
      have hne : (other == name) = false := beq_false_of_ne fun he => hnew (he ▸ hother)
      rw [Entry.sightAt?, Entry.get?_cons, Entry.members, List.lookup_cons, hne]
      rwa [Entry.sightAt?, Entry.get?_cons, Entry.members] at hsight

end

mutual

theorem Entry.pagesAs_nodup (name : String) :
    ∀ {e : Entry}, e.wellNamed = true → (e.pagesAs name).Nodup
  | .file bytes, _ => by
    rw [Entry.pagesAs]
    split <;> simp
  | .directory entries, h => by
    rw [Entry.wellNamed] at h
    rw [Entry.pagesAs]
    refine List.pairwise_map.mpr ((pagesOf_nodup h).imp ?_)
    intro a b hne he
    exact hne (List.cons.inj he).2

theorem pagesOf_nodup :
    ∀ {entries : List (String × Entry)}, wellNamedIn entries = true → (pagesOf entries).Nodup
  | [], _ => by simp [pagesOf]
  | (name, e) :: rest, h => by
    obtain ⟨_, hnew, he, hrest⟩ := wellNamedIn_cons.mp h
    rw [pagesOf]
    refine List.nodup_append.mpr ⟨Entry.pagesAs_nodup name he, pagesOf_nodup hrest, ?_⟩
    intro a ha b hb hab
    obtain ⟨later, rfl⟩ := head_of_mem_pagesAs ha
    obtain ⟨other, hother, _, rfl⟩ := head_of_mem_pagesOf hb
    obtain ⟨rfl, _⟩ := List.cons.inj hab
    exact hnew hother

end

theorem mem_pagePaths {exclude : List Glob} {entries : List (String × Entry)} {path : String}
    (hwell : wellNamedIn entries = true) (h : path ∈ pagePaths exclude entries) :
    ∃ bytes front last, path = pathOf (front ++ [last]) ∧ IsPage front last ∧
      (Entry.directory entries).sightAt? (front ++ [last]) = some (.file bytes) := by
  obtain ⟨names, hnames, rfl⟩ := List.mem_map.mp h
  have hmem := (List.mem_filter.mp (List.mem_mergeSort.mp hnames)).1
  obtain ⟨bytes, front, last, hsight, rfl, hpage⟩ := mem_pagesOf hwell hmem
  exact ⟨bytes, front, last, rfl, hpage, hsight⟩

/-! ## The order of pages -/

theorem namesLe_iff {a b : List String} : namesLe a b = true ↔ ¬b < a := by
  rw [namesLe, Bool.not_eq_true', decide_eq_false_iff_not]

theorem mergeSort_namesLe (l : List (List String)) :
    (l.mergeSort namesLe).Pairwise fun a b => ¬b < a := by
  have hsorted : (l.mergeSort namesLe).Pairwise fun a b => namesLe a b = true := by
    apply List.pairwise_mergeSort
    · intro a b c hab hbc
      rw [namesLe_iff, List.not_lt] at hab hbc ⊢
      exact List.le_trans hab hbc
    · intro a b
      rw [Bool.or_eq_true, namesLe_iff, namesLe_iff, List.not_lt, List.not_lt]
      exact List.le_total a b
  exact hsorted.imp namesLe_iff.mp

theorem rawNames_of_mem_pagesOf {entries : List (String × Entry)} {names : List String}
    (hwell : wellNamedIn entries = true) (h : names ∈ pagesOf entries) :
    rawNames (pathOf names) = names := by
  obtain ⟨_, front, last, _, rfl, hpage⟩ := mem_pagesOf hwell h
  exact rawNames_pathOf (by simp) hpage.plain

/-- The names of pages increase from each to the next. -/
theorem pagePaths_increasing (exclude : List Glob) {entries : List (String × Entry)}
    (hwell : wellNamedIn entries = true) :
    (pagePaths exclude entries).Pairwise fun a b => rawNames a < rawNames b := by
  have hnodup : (((pagesOf entries).filter fun names =>
      !exclude.any (·.accepts (pathOf names))).mergeSort namesLe).Nodup :=
    (List.mergeSort_perm _ _).nodup_iff.mpr ((pagesOf_nodup hwell).filter _)
  refine List.pairwise_map.mpr (((mergeSort_namesLe _).and hnodup).imp_of_mem ?_)
  intro a b ha hb ⟨hle, hne⟩
  have hlt : a < b := Decidable.byContradiction fun hge =>
    hne (List.le_antisymm (List.not_lt.mp hle) (List.not_lt.mp hge))
  rwa [rawNames_of_mem_pagesOf hwell (List.mem_filter.mp (List.mem_mergeSort.mp ha)).1,
    rawNames_of_mem_pagesOf hwell (List.mem_filter.mp (List.mem_mergeSort.mp hb)).1]

theorem pagePaths_nodup (exclude : List Glob) {entries : List (String × Entry)}
    (hwell : wellNamedIn entries = true) : (pagePaths exclude entries).Nodup := by
  refine (pagePaths_increasing exclude hwell).imp ?_
  intro a b hlt he
  exact List.lt_irrefl (rawNames b) (he ▸ hlt)

/-! ## Where pages and side-cars are -/

namespace Store

variable {s : Store}

theorem base_congr {path other : String} (h : isAbsolute path = isAbsolute other) :
    s.base path = s.base other := by
  rw [base, base, h]

/-- A path of plain names below a root leads on from where the root leads. -/
theorem placeOf_below (root : String) {front : List String} {last : String}
    (h : ∀ name ∈ front ++ [last], isPlain name = true) :
    s.placeOf (below root (pathOf (front ++ [last]))) = s.placeOf root ++ front ++ [last] := by
  obtain ⟨hsteps, habsolute, _, _⟩ := below_plain root h
  have hup : ".." ∉ front ++ [last] := fun hmem => (isPlain_iff.mp (h _ hmem)).2.2.1 rfl
  rw [placeOf, placeOf, hsteps, base_congr habsolute, List.append_assoc, List.foldl_append,
    foldl_stepFrom_plain hup, List.append_assoc]

/-- The side-car of a page stands at the page's names below its root, under a name of
its own. -/
theorem placeOf_sidecar (out : String) {front : List String} {last : String}
    (h : IsPage front last) :
    s.placeOf (below out (sidecarPath (pathOf (front ++ [last])))) =
      s.placeOf out ++ front ++ [sidecarName last] := by
  rw [sidecarPath_pathOf h.plain, placeOf_below out h.sidecar]

/-- No page stands where a side-car may be. -/
theorem not_atSidecar {path : String} (h : IsPagePath path) (root : String) :
    ¬AtSidecar (s.placeOf (below root path)) := by
  obtain ⟨front, last, rfl, hpage⟩ := h
  rintro ⟨front', page, he⟩
  rw [placeOf_below root hpage.plain] at he
  obtain ⟨_, hlast⟩ := List.append_inj' he rfl
  have hname := isPageName_sidecarName page
  rw [← (List.cons.inj hlast).1, hpage.last] at hname
  cases hname

theorem placeOf_metrics (directory : String) :
    s.placeOf (join directory metricsFile) = s.placeOf directory ++ [metricsFile] := by
  have hplain : isPlain metricsFile = true := by decide
  obtain ⟨hsteps, habsolute⟩ := join_plain directory hplain
  have hup : ".." ∉ [metricsFile] := by decide
  rw [placeOf, placeOf, hsteps, base_congr habsolute, List.foldl_append, foldl_stepFrom_plain hup]

/-- The places of side-cars differ where their pages do. -/
theorem placeOf_sidecar_injective {out page other : String} (h : IsPagePath page)
    (h' : IsPagePath other)
    (he : s.placeOf (below out (sidecarPath page)) = s.placeOf (below out (sidecarPath other))) :
    page = other := by
  obtain ⟨front, last, rfl, hpage⟩ := h
  obtain ⟨front', last', rfl, hpage'⟩ := h'
  rw [placeOf_sidecar out hpage, placeOf_sidecar out hpage'] at he
  obtain ⟨hfront, hname⟩ := List.append_inj' he rfl
  rw [List.append_cancel_left hfront,
    sidecarName_injective hpage.last hpage'.last (List.cons.inj hname).1]

theorem atSidecar {page : String} (h : IsPagePath page) (out : String) :
    AtSidecar (s.placeOf (below out (sidecarPath page))) := by
  obtain ⟨front, last, rfl, hpage⟩ := h
  exact ⟨_, last, placeOf_sidecar out hpage⟩

/-- A side-car that is written stands in its place, and nothing else has changed. -/
theorem withFile_sidecar {t : Store} {out page text : String} (h : IsPagePath page)
    (hwritten : s.withFile (below out (sidecarPath page)) text = .ok t) :
    s.Leaves t (· = s.placeOf (below out (sidecarPath page))) ∧
      t.Holds (below out (sidecarPath page)) text.toUTF8 := by
  obtain ⟨front, last, rfl, hpage⟩ := h
  rw [sidecarPath_pathOf hpage.plain] at hwritten ⊢
  obtain ⟨hsteps, _, hempty, hend⟩ := below_plain out hpage.sidecar
  exact withFile_spec hempty hend hsteps hwritten

/-- The metrics file stands where no side-car may be, and to write it changes nothing
else. -/
theorem writeFile_metrics (directory text : String) :
    s.Leaves (s.writeFile (join directory metricsFile) text).2
        (· = s.placeOf (join directory metricsFile)) ∧
      ¬AtSidecar (s.placeOf (join directory metricsFile)) := by
  have hplain : isPlain metricsFile = true := by decide
  refine ⟨writeFile_leaves (join_plain directory hplain).1 text, ?_⟩
  intro hsidecar
  obtain ⟨front, page, he⟩ := hsidecar
  rw [placeOf_metrics] at he
  have hname : metricsFile = sidecarName page := by simpa using congrArg List.getLast? he
  exact sidecarName_ne_metricsFile page hname.symm

/-- A scan finds pages that differ, and each of their paths leads to a file. -/
theorem scan_spec {root : String} {exclude : List Glob} {paths : List String}
    (hwell : s.root.wellNamed = true) (h : s.scan root exclude = .ok paths) :
    paths.Nodup ∧
      ∀ path ∈ paths, IsPagePath path ∧ ∃ bytes, s.Holds (below root path) bytes := by
  unfold scan at h
  split at h
  · cases h
  · cases h
  rename_i entries hentry
  cases h
  obtain ⟨place, hplace, hfound⟩ := Tree.bind_eq_ok_iff.mp hentry
  obtain ⟨_, hwalk, _, rfl⟩ := locate_eq_ok_iff.mp hplace
  dsimp only at hfound
  obtain hget : s.root.get? (s.placeOf root) = some (.directory entries) := by
    split at hfound
    · rename_i e he
      rw [he, Tree.pure_eq_ok_iff.mp hfound]
    · cases hfound
  have hentries : wellNamedIn entries = true := Entry.wellNamed_of_get? hwell hget
  refine ⟨pagePaths_nodup exclude hentries, ?_⟩
  intro path hpath
  obtain ⟨bytes, front, last, rfl, hpage, hsight⟩ := mem_pagePaths hentries hpath
  obtain ⟨hsteps, habsolute, hempty, hend⟩ := below_plain root hpage.plain
  have hup : ".." ∉ front ++ [last] := fun hmem => (isPlain_iff.mp (hpage.plain _ hmem)).2.2.1 rfl
  have hfile : s.root.sightAt? (s.placeOf root ++ (front ++ [last])) = some (.file bytes) := by
    rw [Entry.sightAt?_append, hget]
    exact hsight
  refine ⟨⟨front, last, rfl, hpage⟩, bytes, hempty, hend, ?_, ?_⟩
  · rw [hsteps, base_congr habsolute, List.append_assoc, walkable_append]
    exact ⟨hwalk, walkable_of_sightAt? hup (by rw [← placeOf, hfile]; simp)⟩
  · rw [placeOf_below root hpage.plain, List.append_assoc, hfile]

end Store

end HoverTips.Files
