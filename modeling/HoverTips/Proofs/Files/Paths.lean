import HoverTips.Batch.Run
import HoverTips.Files.Scan
import HoverTips.Proofs.Text.Runs

/-! # Plain paths

A name is plain when it is a step of its own. A path of plain names has these
names as its steps, and below a root it leads on from where the root leads. The
side-car of a page stands beside it, under a name that no page has; pages with
different names have different side-cars. -/

namespace HoverTips.Files

/-! ## Slashes -/

theorem splitSlashes_ne_nil (cs : List Char) : splitSlashes cs ≠ [] := by
  cases cs with
  | nil => simp [splitSlashes]
  | cons c cs =>
    rw [splitSlashes]
    split
    · simp
    · split <;> simp

theorem splitSlashes_slash (cs : List Char) : splitSlashes ('/' :: cs) = [] :: splitSlashes cs := by
  rw [splitSlashes]
  split
  · exact absurd ‹_› (splitSlashes_ne_nil cs)
  · simp [*]

theorem splitSlashes_append (a b : List Char) :
    splitSlashes (a ++ '/' :: b) = splitSlashes a ++ splitSlashes b := by
  induction a with
  | nil => exact splitSlashes_slash b
  | cons c a ih =>
    rw [List.cons_append, splitSlashes, splitSlashes, ih]
    cases h : splitSlashes a with
    | nil => exact absurd h (splitSlashes_ne_nil a)
    | cons piece pieces =>
      simp only [List.cons_append]
      split <;> rfl

theorem splitSlashes_of_notMem {cs : List Char} (h : '/' ∉ cs) : splitSlashes cs = [cs] := by
  induction cs with
  | nil => rfl
  | cons c cs ih =>
    rw [List.mem_cons, not_or] at h
    have hc : (c == '/') = false := by simpa using Ne.symm h.1
    simp [splitSlashes, ih h.2, hc]

theorem splitSlashes_joinSlashes {names : List (List Char)} (hne : names ≠ [])
    (h : ∀ name ∈ names, '/' ∉ name) : splitSlashes (joinSlashes names) = names := by
  induction names with
  | nil => exact absurd rfl hne
  | cons name names ih =>
    rw [List.forall_mem_cons] at h
    cases names with
    | nil => exact splitSlashes_of_notMem h.1
    | cons next names =>
      rw [joinSlashes, splitSlashes_append, splitSlashes_of_notMem h.1, ih (by simp) h.2]
      · rfl
      · simp

/-! ## Names -/

/-- A name that is a step of its own: neither empty nor dots, and without slashes. -/
def isPlain (name : String) : Bool :=
  name != "" && name != "." && name != ".." && !name.toList.contains '/'

theorem isPlain_iff {name : String} :
    isPlain name = true ↔ name ≠ "" ∧ name ≠ "." ∧ name ≠ ".." ∧ '/' ∉ name.toList := by
  simp [isPlain, and_assoc]

theorem toList_pathOf (names : List String) :
    (pathOf names).toList = joinSlashes (names.map String.toList) := by
  induction names with
  | nil => rfl
  | cons name names ih =>
    cases names with
    | nil => simp [pathOf, joinSlashes]
    | cons next names =>
      rw [pathOf, String.intercalate_cons_cons, String.toList_append, String.toList_append]
      rw [pathOf] at ih
      rw [ih]
      simp [joinSlashes]

theorem splitSlashes_pathOf {names : List String} (hne : names ≠ [])
    (h : ∀ name ∈ names, isPlain name = true) :
    splitSlashes (pathOf names).toList = names.map String.toList := by
  rw [toList_pathOf]
  refine splitSlashes_joinSlashes (by simpa using hne) ?_
  intro name hname
  obtain ⟨n, hn, rfl⟩ := List.mem_map.mp hname
  exact (isPlain_iff.mp (h n hn)).2.2.2

theorem rawNames_pathOf {names : List String} (hne : names ≠ [])
    (h : ∀ name ∈ names, isPlain name = true) : rawNames (pathOf names) = names := by
  rw [rawNames, splitSlashes_pathOf hne h, List.map_map]
  simp

/-! ## One step down -/

/-- The path of a name below a path. -/
def descend (path name : String) : String := if path == "" then name else path ++ "/" ++ name

theorem rawNames_slash (path later : String) :
    rawNames (path ++ "/" ++ later) = rawNames path ++ rawNames later := by
  simp [rawNames, splitSlashes_append]

theorem rawNames_plain {name : String} (h : isPlain name = true) : rawNames name = [name] := by
  rw [rawNames, splitSlashes_of_notMem (isPlain_iff.mp h).2.2.2]
  simp

theorem steps_slash (path later : String) :
    steps (path ++ "/" ++ later) = steps path ++ steps later := by
  simp [steps, rawNames_slash]

theorem steps_plain {name : String} (h : isPlain name = true) : steps name = [name] := by
  obtain ⟨hempty, hdot, _, _⟩ := isPlain_iff.mp h
  simp [steps, rawNames_plain h, hempty, hdot]

theorem steps_empty : steps "" = [] := by decide

theorem isAbsolute_append {path : String} (h : path ≠ "") (later : String) :
    isAbsolute (path ++ later) = isAbsolute path := by
  cases hpath : path.toList with
  | nil => exact absurd (by simpa using hpath) h
  | cons c cs => simp [isAbsolute, hpath]

theorem isAbsolute_plain {name : String} (h : isPlain name = true) : isAbsolute name = false := by
  have hslash := (isPlain_iff.mp h).2.2.2
  cases hname : name.toList with
  | nil => simp [isAbsolute, hname]
  | cons c cs =>
    have hc : c ≠ '/' := by
      intro hc
      simp [hname, hc] at hslash
    simp [isAbsolute, hname, hc]

section descend

variable {path name : String}

theorem steps_descend (h : isPlain name = true) :
    steps (descend path name) = steps path ++ [name] := by
  unfold descend
  split
  · rename_i hpath
    rw [beq_iff_eq.mp hpath, steps_empty, steps_plain h, List.nil_append]
  · rw [steps_slash, steps_plain h]

theorem isAbsolute_descend (h : isPlain name = true) :
    isAbsolute (descend path name) = isAbsolute path := by
  unfold descend
  split
  · rename_i hpath
    rw [beq_iff_eq.mp hpath, isAbsolute_plain h]
    rfl
  · rename_i hpath
    rw [String.append_assoc, isAbsolute_append (by simpa using hpath)]

theorem descend_ne_empty (h : isPlain name = true) : descend path name ≠ "" := by
  have hsteps : steps (descend path name) = steps path ++ [name] := steps_descend h
  intro he
  rw [he, steps_empty] at hsteps
  simp at hsteps

theorem endsInDirectory_descend (h : isPlain name = true) :
    endsInDirectory (descend path name) = false := by
  obtain ⟨hempty, hdot, _, _⟩ := isPlain_iff.mp h
  have hlast : (rawNames (descend path name)).getLast? = some name := by
    unfold descend
    split
    · rw [rawNames_plain h]
      rfl
    · rw [rawNames_slash, rawNames_plain h, List.getLast?_concat]
  simp [endsInDirectory, hlast, hempty, hdot]

end descend

/-! ## Below a root -/

theorem below_pathOf (root : String) {names : List String}
    (h : ∀ name ∈ names, isPlain name = true) :
    below root (pathOf names) = names.foldl descend root := by
  have hnames : (rawNames (pathOf names)).filter (· != "") = names := by
    by_cases hne : names = []
    · rw [hne]
      decide
    · rw [rawNames_pathOf hne h]
      refine List.filter_eq_self.mpr fun name hname => ?_
      simpa using (isPlain_iff.mp (h name hname)).1
  rw [below, hnames]
  rfl

theorem steps_foldl_descend {names : List String} (h : ∀ name ∈ names, isPlain name = true)
    (root : String) :
    steps (names.foldl descend root) = steps root ++ names ∧
      isAbsolute (names.foldl descend root) = isAbsolute root := by
  induction names generalizing root with
  | nil => simp
  | cons name names ih =>
    rw [List.forall_mem_cons] at h
    obtain ⟨hsteps, habsolute⟩ := ih h.2 (descend root name)
    rw [List.foldl_cons, hsteps, habsolute, steps_descend h.1, isAbsolute_descend h.1]
    simp

/-- A path of plain names below a root: its steps are those of the root and the names,
it starts where the root starts, and it can mean a file. -/
theorem below_plain (root : String) {names : List String} {last : String}
    (h : ∀ name ∈ names ++ [last], isPlain name = true) :
    let path := below root (pathOf (names ++ [last]))
    steps path = steps root ++ names ++ [last] ∧ isAbsolute path = isAbsolute root ∧
      path ≠ "" ∧ endsInDirectory path = false := by
  have hlast : isPlain last = true := h last (by simp)
  obtain ⟨hsteps, habsolute⟩ := steps_foldl_descend h root
  simp only [below_pathOf root h, hsteps, habsolute, List.append_assoc, true_and]
  rw [List.foldl_append]
  exact ⟨descend_ne_empty hlast, endsInDirectory_descend hlast⟩

/-- The path of a file in a directory leads on from where the directory leads. -/
theorem join_plain (directory : String) {name : String} (h : isPlain name = true) :
    steps (join directory name) = steps directory ++ [name] ∧
      isAbsolute (join directory name) = isAbsolute directory := by
  by_cases hempty : directory = ""
  · have hjoin : join directory name = descend directory name := by simp [join, descend, hempty]
    rw [hjoin]
    exact ⟨steps_descend h, isAbsolute_descend h⟩
  by_cases hslash : directory.toList.getLast? = some '/'
  · obtain ⟨front, hfront⟩ := List.getLast?_eq_some_iff.mp hslash
    have hdirectory : directory = String.ofList front ++ "/" ++ "" := by
      rw [← String.toList_inj]
      simp [hfront]
    have hjoin : join directory name = directory ++ name := by
      simp [join, isAbsolute_plain h, hempty, hslash]
    have hsteps : directory ++ name = String.ofList front ++ "/" ++ name := by
      rw [← String.toList_inj]
      simp [hfront]
    rw [hjoin, isAbsolute_append hempty]
    refine ⟨?_, rfl⟩
    rw [hsteps, hdirectory, steps_slash, steps_slash, steps_plain h, steps_empty, List.append_nil]
  · have hjoin : join directory name = descend directory name := by
      simp [join, descend, isAbsolute_plain h, hempty, hslash]
    rw [hjoin]
    exact ⟨steps_descend h, isAbsolute_descend h⟩

/-! ## Side-cars -/

/-- A name is its part before the last dot, the dot, and the part behind it. -/
theorem eq_of_splitExtension {name stem extension : List Char}
    (h : splitExtension name = (stem, some extension)) : name = stem ++ '.' :: extension := by
  unfold splitExtension at h
  dsimp only at h
  split at h
  · cases h
  · rename_i hdot
    rw [Prod.mk.injEq, Option.some.injEq] at h
    obtain ⟨hstem, hbehind⟩ := h
    have hsplit : name.reverse.takeWhile (· != '.') ++ name.reverse.dropWhile (· != '.') =
        name.reverse := List.takeWhile_append_dropWhile
    rw [hbehind] at hstem hdot
    have hback : name.reverse.takeWhile (· != '.') = extension.reverse := by
      rw [← hbehind, List.reverse_reverse]
    rw [hback] at hsplit
    cases hrest : name.reverse.dropWhile (· != '.') with
    | nil =>
      rw [hrest, List.append_nil] at hsplit
      have hlength := congrArg List.length hsplit
      simp only [List.length_reverse] at hlength
      simp [hlength] at hdot
    | cons c rest =>
      have hc : c = '.' := by
        have hhead : c ∈ (name.reverse.dropWhile (· != '.')).head? := by simp [hrest]
        simpa using Text.of_mem_head?_dropWhile hhead
      rw [hrest, hc] at hsplit
      have hname : name = rest.reverse ++ '.' :: extension := by
        rw [← List.reverse_inj, ← hsplit]
        simp
      have hlength : (rest.reverse ++ '.' :: extension).length - extension.length - 1 =
          rest.reverse.length := by
        simp only [List.length_append, List.length_cons]
        omega
      rw [← hstem, hname, hlength, List.take_left]

/-- The name of the side-car of a page with a name. -/
def sidecarName (page : String) : String :=
  String.ofList ((splitExtension page.toList).1 ++ '.' :: "tooltips.json".toList)

theorem isPageName_iff {name : String} : isPageName name = true ↔
    (splitExtension name.toList).2 = some "md".toList := by
  unfold isPageName extension?
  cases (splitExtension name.toList).2 with
  | none => simp
  | some behind =>
    rw [Option.map_some, beq_iff_eq, Option.some.injEq, Option.some.injEq, ← String.toList_inj,
      String.toList_ofList]

theorem toList_of_isPageName {name : String} (h : isPageName name = true) :
    name.toList = (splitExtension name.toList).1 ++ '.' :: "md".toList :=
  eq_of_splitExtension (Prod.ext rfl (isPageName_iff.mp h))

theorem sidecarName_injective {a b : String} (ha : isPageName a = true) (hb : isPageName b = true)
    (h : sidecarName a = sidecarName b) : a = b := by
  have hstem := List.append_cancel_right (String.ofList_injective h)
  rw [← String.toList_inj, toList_of_isPageName ha, toList_of_isPageName hb, hstem]

/-- A side-car is not a page. -/
theorem isPageName_sidecarName (page : String) : isPageName (sidecarName page) = false := by
  rw [Bool.eq_false_iff]
  intro h
  have hlast := congrArg List.getLast? (toList_of_isPageName h)
  rw [sidecarName, String.toList_ofList, List.getLast?_append, List.getLast?_append] at hlast
  simp at hlast

/-- The file that the metrics are written to is not a side-car. -/
theorem sidecarName_ne_metricsFile (page : String) : sidecarName page ≠ metricsFile := by
  intro h
  have hsuffix : '.' :: "tooltips.json".toList <:+ metricsFile.toList :=
    ⟨(splitExtension page.toList).1, by simp [← h, sidecarName]⟩
  have hnone : ¬ ('.' :: "tooltips.json".toList <:+ metricsFile.toList) := by decide +kernel
  exact hnone hsuffix

theorem isPlain_sidecarName {page : String} (h : isPageName page = true)
    (hplain : isPlain page = true) : isPlain (sidecarName page) = true := by
  have hslash := (isPlain_iff.mp hplain).2.2.2
  rw [toList_of_isPageName h, List.mem_append, not_or] at hslash
  have hlast : (sidecarName page).toList.getLast? = some 'n' := by
    rw [sidecarName, String.toList_ofList, List.getLast?_append]
    rfl
  rw [isPlain_iff]
  refine ⟨?_, ?_, ?_, ?_⟩
  · intro he
    simp [he] at hlast
  · intro he
    simp [he] at hlast
  · intro he
    simp [he] at hlast
  · rw [sidecarName, String.toList_ofList, List.mem_append, not_or]
    exact ⟨hslash.1, by decide⟩

theorem sidecarPath_pathOf {names : List String} {last : String}
    (h : ∀ name ∈ names ++ [last], isPlain name = true) :
    sidecarPath (pathOf (names ++ [last])) = pathOf (names ++ [sidecarName last]) := by
  obtain ⟨hempty, hdot, hdots, _⟩ := isPlain_iff.mp (h last (by simp))
  have hpieces : (splitSlashes (pathOf (names ++ [last])).toList).reverse =
      last.toList :: (names.map String.toList).reverse := by
    rw [splitSlashes_pathOf (by simp) h]
    simp
  have hdrop : dropTrailing (last.toList :: (names.map String.toList).reverse) =
      last.toList :: (names.map String.toList).reverse := by
    have hdot' : last.toList ≠ ['.'] := fun he => hdot (String.toList_inj.mp he)
    simp [dropTrailing, hempty, hdot']
  rw [← String.toList_inj, sidecarPath, withExtension, hpieces, hdrop, toList_pathOf]
  have hdots' : last.toList ≠ ['.', '.'] := fun he => hdots (String.toList_inj.mp he)
  simp [hdots', sidecarName]

end HoverTips.Files
