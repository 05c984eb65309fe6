import HoverTips.Proofs.Files.Pages

/-! # Which pages a scan finds

A scan of a directory finds its pages and those of the directories below, all that no
pattern matches, each once and in the order of their names. A file system may list a
directory in any order; the pages and their order stay the same. -/

namespace HoverTips.Files

/-! ## Names of pages -/

/-- The last dot of a name separates if something is in front of it. -/
theorem splitExtension_append {stem extension : List Char} (hstem : stem ≠ [])
    (hdot : '.' ∉ extension) :
    splitExtension (stem ++ '.' :: extension) = (stem, some extension) := by
  have hback : ∀ c ∈ extension.reverse, (c != '.') = true := by
    intro c hc
    have hne : c ≠ '.' := fun he => hdot (he ▸ List.mem_reverse.mp hc)
    simpa using hne
  have hname : (stem ++ '.' :: extension).reverse = extension.reverse ++ '.' :: stem.reverse := by
    simp
  have hbehind : (stem ++ '.' :: extension).reverse.takeWhile (· != '.') = extension.reverse := by
    rw [hname, List.takeWhile_append_of_pos hback]
    simp
  have hlength : (stem ++ '.' :: extension).length - extension.length - 1 = stem.length := by
    simp only [List.length_append, List.length_cons]
    omega
  have hlonger : ((stem ++ '.' :: extension).length == extension.length) = false := by
    simp only [List.length_append, List.length_cons, beq_eq_false_iff_ne]
    omega
  unfold splitExtension
  dsimp only
  rw [hbehind, List.reverse_reverse, hlength, List.take_left, hlonger, Bool.false_or,
    List.isEmpty_eq_false_iff.mpr hstem]
  rfl

theorem ne_nil_of_splitExtension {name stem extension : List Char}
    (h : splitExtension name = (stem, some extension)) : stem ≠ [] := by
  intro hstem
  unfold splitExtension at h
  dsimp only at h
  split at h
  · cases h
  · rename_i hdot
    rw [(Prod.mk.inj h).1, hstem] at hdot
    simp at hdot

/-- A page is named like something in front of `.md`. -/
theorem isPageName_iff_append {name : String} :
    isPageName name = true ↔ ∃ stem, stem ≠ "" ∧ name = stem ++ ".md" := by
  constructor
  · intro h
    have hname := toList_of_isPageName h
    have hstem := ne_nil_of_splitExtension (Prod.ext rfl (isPageName_iff.mp h))
    refine ⟨String.ofList (splitExtension name.toList).1, ?_, ?_⟩
    · intro he
      rw [← String.toList_inj, String.toList_ofList] at he
      exact hstem he
    · rw [← String.toList_inj, String.toList_append, String.toList_ofList]
      exact hname
  · intro ⟨stem, hstem, hname⟩
    have hne : stem.toList ≠ [] := fun he => hstem (String.toList_inj.mp he)
    have hsplit : splitExtension (stem.toList ++ '.' :: "md".toList) = _ :=
      splitExtension_append hne (by decide)
    rw [isPageName_iff, hname, String.toList_append]
    exact congrArg Prod.snd hsplit

/-! ## Nothing is missed -/

theorem pagesOf_eq_flatMap (entries : List (String × Entry)) :
    pagesOf entries = entries.flatMap fun entry => entry.2.pagesAs entry.1 := by
  induction entries with
  | nil => rfl
  | cons entry entries ih =>
    obtain ⟨name, e⟩ := entry
    rw [pagesOf, ih, List.flatMap_cons]

theorem mem_pagesOf_of_lookup {entries : List (String × Entry)} {name : String} {e : Entry}
    {names : List String} (hlookup : entries.lookup name = some e) (h : names ∈ e.pagesAs name) :
    names ∈ pagesOf entries := by
  obtain ⟨front, back, rfl, _⟩ := List.lookup_eq_some_iff.mp hlookup
  rw [pagesOf_eq_flatMap, List.mem_flatMap]
  exact ⟨(name, e), by simp, h⟩

/-- A file with the name of a page is found however deep it lies. -/
theorem mem_pagesOf_of_get? {front : List String} {last : String} {bytes : ByteArray}
    (hlast : isPageName last = true) {entries : List (String × Entry)}
    (hget : (Entry.directory entries).get? (front ++ [last]) = some (.file bytes)) :
    front ++ [last] ∈ pagesOf entries := by
  induction front generalizing entries with
  | nil =>
    rw [List.nil_append, Entry.get?_cons, Entry.members] at hget
    obtain ⟨e, hlookup, he⟩ := Option.bind_eq_some_iff.mp hget
    cases he
    refine mem_pagesOf_of_lookup hlookup ?_
    rw [Entry.pagesAs, if_pos hlast]
    exact List.mem_singleton.mpr rfl
  | cons name front ih =>
    rw [List.cons_append, Entry.get?_cons, Entry.members] at hget
    obtain ⟨e, hlookup, hbelow⟩ := Option.bind_eq_some_iff.mp hget
    refine mem_pagesOf_of_lookup hlookup ?_
    cases e with
    | file bytes =>
      -- nothing is below a file
      cases front <;> cases hbelow
    | directory entries =>
      rw [Entry.pagesAs, List.cons_append]
      exact List.mem_map_of_mem (ih hbelow)

/-- The path leads to a page: to a file whose name is something in front of `.md`. -/
def Entry.HasPage (e : Entry) (path : String) : Prop :=
  ∃ front stem bytes, stem ≠ "" ∧ path = pathOf (front ++ [stem ++ ".md"]) ∧
    e.get? (front ++ [stem ++ ".md"]) = some (.file bytes)

theorem mem_pagePaths_iff {exclude : List Glob} {entries : List (String × Entry)} {path : String}
    (hwell : wellNamedIn entries = true) :
    path ∈ pagePaths exclude entries ↔
      (Entry.directory entries).HasPage path ∧ ∀ g ∈ exclude, g.accepts path = false := by
  have hmem : path ∈ pagePaths exclude entries ↔
      ∃ names ∈ pagesOf entries, pathOf names = path ∧ ∀ g ∈ exclude, g.accepts path = false := by
    simp only [pagePaths, List.mem_map, List.mem_mergeSort, List.mem_filter, Bool.not_eq_true',
      List.any_eq_false, Bool.not_eq_true]
    constructor
    · rintro ⟨names, ⟨hnames, hkept⟩, rfl⟩
      exact ⟨names, hnames, rfl, hkept⟩
    · rintro ⟨names, hnames, rfl, hkept⟩
      exact ⟨names, ⟨hnames, hkept⟩, rfl⟩
  rw [hmem]
  constructor
  · intro ⟨names, hnames, hpath, hkept⟩
    obtain ⟨bytes, front, last, hsight, rfl, hpage⟩ := mem_pagesOf hwell hnames
    obtain ⟨stem, hstem, rfl⟩ := isPageName_iff_append.mp hpage.last
    exact ⟨⟨front, stem, bytes, hstem, hpath.symm, Entry.sightAt?_eq_file_iff.mp hsight⟩, hkept⟩
  · intro ⟨⟨front, stem, bytes, hstem, hpath, hget⟩, hkept⟩
    have hlast : isPageName (stem ++ ".md") = true := isPageName_iff_append.mpr ⟨stem, hstem, rfl⟩
    exact ⟨_, mem_pagesOf_of_get? hlast hget, hpath.symm, hkept⟩

/-! ## The order of a listing -/

mutual

/-- The same entry, with every directory in it listed in any order. -/
inductive Entry.Relisted : Entry → Entry → Prop where
  | file (bytes : ByteArray) : Entry.Relisted (.file bytes) (.file bytes)
  | directory {entries between others : List (String × Entry)} (below : RelistedIn entries between)
      (order : between.Perm others) : Entry.Relisted (.directory entries) (.directory others)

/-- The same entries in the same order, each listed in any order from the inside. -/
inductive RelistedIn : List (String × Entry) → List (String × Entry) → Prop where
  | nil : RelistedIn [] []
  | cons {name : String} {e f : Entry} {rest others : List (String × Entry)}
      (first : Entry.Relisted e f) (later : RelistedIn rest others) :
      RelistedIn ((name, e) :: rest) ((name, f) :: others)

end

theorem pagesOf_perm {entries others : List (String × Entry)} (h : entries.Perm others) :
    (pagesOf entries).Perm (pagesOf others) := by
  rw [pagesOf_eq_flatMap, pagesOf_eq_flatMap]
  exact h.flatMap_right _

mutual

theorem Entry.Relisted.pagesAs_perm (name : String) :
    ∀ {e f : Entry}, e.Relisted f → (e.pagesAs name).Perm (f.pagesAs name)
  | .file _, _, .file _ => .refl _
  | .directory _, _, .directory below order => by
    rw [Entry.pagesAs, Entry.pagesAs]
    exact (below.pagesOf_perm.trans (Files.pagesOf_perm order)).map _

theorem RelistedIn.pagesOf_perm :
    ∀ {entries others : List (String × Entry)}, RelistedIn entries others →
      (pagesOf entries).Perm (pagesOf others)
  | [], _, .nil => .refl _
  | (name, _) :: _, _, .cons first later => by
    rw [pagesOf, pagesOf]
    exact (first.pagesAs_perm name).append later.pagesOf_perm

end

/-- A sorted list is known by its members. -/
theorem pagePaths_of_perm (exclude : List Glob) {entries others : List (String × Entry)}
    (h : (pagesOf entries).Perm (pagesOf others)) :
    pagePaths exclude others = pagePaths exclude entries := by
  refine congrArg (List.map pathOf) (List.Perm.eq_of_pairwise ?_ (mergeSort_namesLe _)
    (mergeSort_namesLe _) ?_)
  · intro a b _ _ hab hba
    exact List.le_antisymm (List.not_lt.mp hab) (List.not_lt.mp hba)
  · exact (List.mergeSort_perm _ _).trans
      ((h.symm.filter _).trans (List.mergeSort_perm _ _).symm)

/-! ## What a scan finds -/

namespace Store

variable {s : Store} {root : String} {entries : List (String × Entry)}

theorem scan_directory (h : s.entryAt root = .ok (.directory entries)) (exclude : List Glob) :
    s.scan root exclude = .ok (pagePaths exclude entries) := by
  rw [scan, h]

/-- A scan of a directory finds exactly the pages in it that no pattern matches: the files
at any depth that are named like something in front of `.md`. It lists each once, and
their names increase. Where the directory and those in it are listed in another order, a
scan finds the same. -/
theorem scan_finds_pages (hroot : s.entryAt root = .ok (.directory entries))
    (hwell : wellNamedIn entries = true) (exclude : List Glob) :
    ∃ paths, s.scan root exclude = .ok paths ∧
      (∀ path, path ∈ paths ↔
        (Entry.directory entries).HasPage path ∧ ∀ g ∈ exclude, g.accepts path = false) ∧
      paths.Nodup ∧
      paths.Pairwise (fun a b => rawNames a < rawNames b) ∧
      ∀ (t : Store) (other : Entry), t.entryAt root = .ok other →
        (Entry.directory entries).Relisted other → t.scan root exclude = .ok paths := by
  refine ⟨_, scan_directory hroot exclude, fun path => mem_pagePaths_iff hwell,
    pagePaths_nodup exclude hwell, pagePaths_increasing exclude hwell, ?_⟩
  intro t other hother hlisted
  cases hlisted with
  | directory below order =>
    rw [scan_directory hother]
    exact congrArg Except.ok
      (pagePaths_of_perm exclude (below.pagesOf_perm.trans (pagesOf_perm order)))

/-- A store with some entries in its docs directory. -/
def withDocs (entries : List (String × Entry)) : Store :=
  ⟨.directory [("docs", .directory entries)], []⟩

/-- A file with nothing in front of `.md`, a page, a draft, and a directory that is named
like a page. -/
def docsEntries : List (String × Entry) :=
  [(".md", .file .empty), ("c.md", .file .empty),
    ("drafts", .directory [("wip.md", .file .empty)]),
    ("x.md", .directory [("a.md", .file .empty), ("b.md", .file .empty)])]

/-- The same entries, listed from the last to the first. -/
def docsBackwards : List (String × Entry) :=
  [("x.md", .directory [("b.md", .file .empty), ("a.md", .file .empty)]),
    ("drafts", .directory [("wip.md", .file .empty)]), ("c.md", .file .empty),
    (".md", .file .empty)]

theorem docsEntries_relisted :
    (Entry.directory docsEntries).Relisted (.directory docsBackwards) := by
  have hdrafts : (Entry.directory [("wip.md", .file .empty)]).Relisted
      (.directory [("wip.md", .file .empty)]) :=
    .directory (.cons (.file _) .nil) (.refl _)
  have hpages : (Entry.directory [("a.md", .file .empty), ("b.md", .file .empty)]).Relisted
      (.directory [("b.md", .file .empty), ("a.md", .file .empty)]) :=
    .directory (.cons (.file _) (.cons (.file _) .nil)) (.swap _ _ _)
  exact .directory (.cons (.file _) (.cons (.file _) (.cons hdrafts (.cons hpages .nil))))
    (List.reverse_perm _).symm

/-- Patterns against drafts. -/
def noDrafts : List Glob := (Glob.ofString "drafts/**").toOption.toList

/-- Without the drafts there are three pages, in the same order whichever way they are
listed. -/
theorem scan_finds_pages_backwards :
    (withDocs docsEntries).scan "docs" noDrafts = .ok ["c.md", "x.md/a.md", "x.md/b.md"] ∧
      (withDocs docsBackwards).scan "docs" noDrafts =
        .ok ["c.md", "x.md/a.md", "x.md/b.md"] := by
  have hscan : (withDocs docsEntries).scan "docs" noDrafts =
      .ok ["c.md", "x.md/a.md", "x.md/b.md"] := by
    have hsorted : [["c.md"], ["x.md", "a.md"], ["x.md", "b.md"]].Pairwise (namesLe · ·) := by
      decide +kernel
    change Except.ok (([["c.md"], ["x.md", "a.md"], ["x.md", "b.md"]].mergeSort namesLe).map
      pathOf) = _
    rw [List.mergeSort_of_pairwise hsorted]
    rfl
  have hdocs : (withDocs docsEntries).entryAt "docs" = .ok (.directory docsEntries) := rfl
  obtain ⟨paths, hpaths, _, _, _, hrelisted⟩ :=
    scan_finds_pages hdocs (by decide +kernel) noDrafts
  obtain rfl := Except.ok.inj (hpaths.symm.trans hscan)
  exact ⟨hscan, hrelisted (withDocs docsBackwards) _ rfl docsEntries_relisted⟩

end Store

end HoverTips.Files
