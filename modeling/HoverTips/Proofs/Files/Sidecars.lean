import HoverTips.Proofs.Files.Finding

/-! # Side-cars apart

The side-car of a page has the page's path with another ending, whatever dots stand in
the name or in the directories before it. So pages that differ have side-cars that
differ, no scan takes a side-car for a page, and to write one leaves the pages and all
other side-cars as they are. -/

namespace HoverTips.Files

theorem sidecarName_append {stem : String} (hstem : stem ≠ "") :
    sidecarName (stem ++ ".md") = stem ++ ".tooltips.json" := by
  have hne : stem.toList ≠ [] := fun he => hstem (String.toList_inj.mp he)
  have hsplit : splitExtension (stem.toList ++ '.' :: "md".toList) = _ :=
    splitExtension_append hne (by decide)
  have hname : (stem ++ ".md").toList = stem.toList ++ '.' :: "md".toList := by simp
  rw [← String.toList_inj, sidecarName, String.toList_ofList, hname, hsplit]
  simp

/-- The ending of the last name is the ending of the path. -/
theorem pathOf_concat_append (front : List String) (last ending : String) :
    pathOf (front ++ [last ++ ending]) = pathOf (front ++ [last]) ++ ending := by
  by_cases hfront : front = []
  · simp [pathOf, hfront]
  · simp only [pathOf, String.intercalate_append_of_ne_nil hfront (List.cons_ne_nil _ _),
      String.intercalate_singleton, String.append_assoc]

theorem IsPagePath.sidecarPath {page : String} (h : IsPagePath page) :
    ∃ stem, page = stem ++ ".md" ∧ sidecarPath page = stem ++ ".tooltips.json" := by
  obtain ⟨front, last, rfl, hpage⟩ := h
  obtain ⟨stem, hstem, rfl⟩ := isPageName_iff_append.mp hpage.last
  refine ⟨pathOf (front ++ [stem]), pathOf_concat_append front stem ".md", ?_⟩
  rw [sidecarPath_pathOf hpage.plain, sidecarName_append hstem, pathOf_concat_append]

theorem sidecarPath_injective {page other : String} (h : IsPagePath page) (h' : IsPagePath other)
    (he : sidecarPath page = sidecarPath other) : page = other := by
  obtain ⟨stem, rfl, hpage⟩ := h.sidecarPath
  obtain ⟨stem', rfl, hother⟩ := h'.sidecarPath
  rw [hpage, hother] at he
  rw [(String.append_left_inj _).mp he]

/-- A side-car does not end like a page. -/
theorem not_isPagePath_sidecarPath {page : String} (h : IsPagePath page) :
    ¬IsPagePath (sidecarPath page) := by
  intro hsidecar
  obtain ⟨stem, -, hpage⟩ := h.sidecarPath
  obtain ⟨other, hother, -⟩ := hsidecar.sidecarPath
  have hlast := congrArg (fun path : String => path.toList.getLast?) (hpage.symm.trans hother)
  simp at hlast

namespace Store

variable {s t : Store} {page other out text : String}

/-- To write the side-car of a page leaves every page as it is. -/
theorem Holds.page_of_sidecar {root : String} {bytes : ByteArray} (hpage : IsPagePath page)
    (hother : IsPagePath other) (hwritten : s.withFile (below out (sidecarPath page)) text = .ok t)
    (h : s.Holds (below root other) bytes) : t.Holds (below root other) bytes := by
  refine h.of_leaves (withFile_sidecar hpage hwritten).1 fun he => ?_
  have hplace := not_atSidecar (s := s) hother root
  rw [he] at hplace
  exact hplace (atSidecar hpage out)

/-- To write the side-car of a page leaves those of other pages as they are. -/
theorem Holds.sidecar_of_sidecar {bytes : ByteArray} (hpage : IsPagePath page)
    (hother : IsPagePath other) (hne : other ≠ page)
    (hwritten : s.withFile (below out (sidecarPath page)) text = .ok t)
    (h : s.Holds (below out (sidecarPath other)) bytes) :
    t.Holds (below out (sidecarPath other)) bytes := by
  refine h.of_leaves (withFile_sidecar hpage hwritten).1 fun he => ?_
  exact hne (placeOf_sidecar_injective hother hpage he)

/-- The side-car of a page that a scan found has the page's path with `.tooltips.json` in
place of `.md`. Pages that differ have side-cars that differ, and no side-car is found by
a scan of any store. To write the side-car of a page leaves all pages, and the side-cars
of all other pages, as they are. -/
theorem sidecars_apart {root : String} {exclude : List Glob} {pages : List String}
    (hwell : s.root.wellNamed = true) (hscan : s.scan root exclude = .ok pages) :
    (∀ page ∈ pages, ∃ stem, page = stem ++ ".md" ∧ sidecarPath page = stem ++ ".tooltips.json") ∧
    (∀ page ∈ pages, ∀ other ∈ pages, page ≠ other → sidecarPath page ≠ sidecarPath other) ∧
    (∀ page ∈ pages, ∀ (t : Store) (start : String) (patterns : List Glob) (found : List String),
      t.root.wellNamed = true → t.scan start patterns = .ok found → sidecarPath page ∉ found) ∧
    ∀ page ∈ pages, ∀ out text t, s.withFile (below out (sidecarPath page)) text = .ok t →
      ∀ other ∈ pages, ∀ bytes,
        (s.Holds (below root other) bytes → t.Holds (below root other) bytes) ∧
        (other ≠ page → s.Holds (below out (sidecarPath other)) bytes →
          t.Holds (below out (sidecarPath other)) bytes) := by
  have hpages : ∀ page ∈ pages, IsPagePath page := fun page hpage =>
    ((scan_spec hwell hscan).2 page hpage).1
  refine ⟨fun page hpage => (hpages page hpage).sidecarPath, ?_, ?_, ?_⟩
  · intro page hpage other hother hne he
    exact hne (sidecarPath_injective (hpages page hpage) (hpages other hother) he)
  · intro page hpage t start patterns found ht hfound hmem
    exact not_isPagePath_sidecarPath (hpages page hpage) ((scan_spec ht hfound).2 _ hmem).1
  · intro page hpage out text t hwritten other hother bytes
    exact ⟨.page_of_sidecar (hpages page hpage) (hpages other hother) hwritten,
      fun hne => .sidecar_of_sidecar (hpages page hpage) (hpages other hother) hne hwritten⟩

/-- Pages with dots in their names and in a directory's. -/
def dottedEntries : List (String × Entry) :=
  [(".a.md", .file .empty), ("a.b.md", .file .empty), ("a.md", .file .empty),
    ("v1.2", .directory [("a.md", .file .empty)])]

theorem dottedEntries_scan :
    (withDocs dottedEntries).scan "docs" [] = .ok [".a.md", "a.b.md", "a.md", "v1.2/a.md"] := by
  have hsorted : [[".a.md"], ["a.b.md"], ["a.md"], ["v1.2", "a.md"]].Pairwise (namesLe · ·) := by
    decide +kernel
  change Except.ok (([[".a.md"], ["a.b.md"], ["a.md"], ["v1.2", "a.md"]].mergeSort namesLe).map
    pathOf) = _
  rw [List.mergeSort_of_pairwise hsorted]
  rfl

/-- Dots keep pages apart, and their side-cars with them; one that is written beside the
pages leaves the next page as it is. -/
theorem sidecars_apart_dotted :
    (withDocs dottedEntries).root.wellNamed = true ∧
      (withDocs dottedEntries).scan "docs" [] = .ok [".a.md", "a.b.md", "a.md", "v1.2/a.md"] ∧
      sidecarPath "a.b.md" = "a.b.tooltips.json" ∧
      sidecarPath "a.b.md" ≠ sidecarPath "a.md" ∧
      sidecarPath "a.b.md" ∉ [".a.md", "a.b.md", "a.md", "v1.2/a.md"] ∧
      ∃ t bytes, (withDocs dottedEntries).withFile (below "docs" (sidecarPath "a.b.md")) "x" =
          .ok t ∧
        (withDocs dottedEntries).Holds (below "docs" "a.md") bytes ∧
        t.Holds (below "docs" "a.md") bytes := by
  have hwell : (withDocs dottedEntries).root.wellNamed = true := by decide +kernel
  have hwritten : ((withDocs dottedEntries).withFile (below "docs" (sidecarPath "a.b.md"))
      "x").isOk = true := by decide +kernel
  obtain ⟨bytes, hholds⟩ := ((scan_spec hwell dottedEntries_scan).2 "a.md" (by decide)).2
  obtain ⟨-, hdistinct, hnever, hleft⟩ := sidecars_apart hwell dottedEntries_scan
  refine ⟨hwell, dottedEntries_scan, by decide +kernel,
    hdistinct "a.b.md" (by decide) "a.md" (by decide) (by decide),
    hnever "a.b.md" (by decide) _ "docs" [] _ hwell dottedEntries_scan, ?_⟩
  cases ht : (withDocs dottedEntries).withFile (below "docs" (sidecarPath "a.b.md")) "x" with
  | error fault =>
    rw [ht] at hwritten
    cases hwritten
  | ok t =>
    exact ⟨t, bytes, rfl, hholds,
      (hleft "a.b.md" (by decide) "docs" "x" t ht "a.md" (by decide) bytes).1 hholds⟩

end Store

end HoverTips.Files
