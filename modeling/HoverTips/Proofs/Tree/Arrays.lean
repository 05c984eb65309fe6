import Mathlib.Logic.Function.Iterate
import HoverTips.Proofs.Text.Lines
import HoverTips.Proofs.Tree.Widening

/-! # Types of arrays

An array shows the type that all its elements share, and `any` when they share none. The
brackets behind a type belong to its last part alone if that type is a union, a function
or the like, so such a type is put in parentheses. Whether a type is like that is decided
by the spaces in it: the type of a function always has some, and an asserted type has some
when it is written in several pieces. An array of arrays is read from the inside out, and
one that is shown without parentheses hands on what it is made of. So an array denotes an
array of its elements unless somewhere inside such a type is asserted in one piece, as in
`x as A|B` (`arrays_denote_elements`). -/

namespace HoverTips.Tree

variable {src : List Char} {l : Label} {cs : List Node} {type : String} {types : List String}

/-! ## Types that elements share -/

/-- All elements have one type. -/
structure Uniform (types : List String) (type : String) : Prop where
  some : types ≠ []
  all : ∀ t ∈ types, t = type

/-- There are no elements, or two have different types. -/
def Mixed (types : List String) : Prop := types = [] ∨ ∃ a ∈ types, ∃ b ∈ types, a ≠ b

theorem mixed_or_uniform (types : List String) : Mixed types ∨ ∃ type, Uniform types type := by
  cases types with
  | nil => exact .inl (.inl rfl)
  | cons first rest =>
    by_cases h : ∃ t ∈ rest, t ≠ first
    · obtain ⟨t, ht, hne⟩ := h
      exact .inl (.inr ⟨t, List.mem_cons_of_mem _ ht, first, by simp, hne⟩)
    · have hrest : ∀ t ∈ rest, t = first := fun t ht =>
        Decidable.not_not.mp fun hne => h ⟨t, ht, hne⟩
      exact .inr ⟨first, by simp, List.forall_mem_cons.mpr ⟨rfl, hrest⟩⟩

theorem Uniform.not_mixed (h : Uniform types type) : ¬Mixed types := by
  rintro (hnil | ⟨a, ha, b, hb, hne⟩)
  · exact h.some hnil
  · exact hne ((h.all a ha).trans (h.all b hb).symm)

theorem Uniform.unique {other : String} (h : Uniform types type) (h' : Uniform types other) :
    type = other := by
  obtain ⟨first, hfirst⟩ := List.exists_mem_of_ne_nil types h.some
  exact (h.all first hfirst).symm.trans (h'.all first hfirst)

/-- A type in front of the brackets of an array. -/
def arrayOf (type : String) : String :=
  if ' ' ∈ type.toList then "(" ++ type ++ ")[]" else type ++ "[]"

/-- The brackets and parentheses of an array bring no space. -/
theorem space_mem_arrayOf_iff {type : String} :
    ' ' ∈ (arrayOf type).toList ↔ ' ' ∈ type.toList := by
  rw [arrayOf]
  split <;> simp [*]

theorem space_mem_arrayOf_iterate_iff {type : String} (depth : Nat) :
    ' ' ∈ (arrayOf^[depth] type).toList ↔ ' ' ∈ type.toList := by
  induction depth with
  | zero => rfl
  | succ depth ih => rw [Function.iterate_succ_apply', space_mem_arrayOf_iff, ih]

theorem arrayType_shared (type : String) : arrayType (some type) [] = .ok (arrayOf type) := by
  rw [arrayType, arrayOf]
  by_cases h : ' ' ∈ type.toList
  · rw [if_pos h, if_pos (List.contains_iff_mem.mpr h)]
  · rw [if_neg h, if_neg fun hc => h (List.contains_iff_mem.mp hc)]

theorem arrayType_seen (first : String) (types : List String) :
    arrayType (some first) (types.map .ok) =
      .ok (if ∀ t ∈ types, t = first then arrayOf first else "any[]") := by
  induction types with
  | nil => rw [if_pos (by simp), List.map_nil, arrayType_shared]
  | cons t types ih =>
    show (if first == t then arrayType (some first) (types.map .ok) else .ok "any[]") = _
    by_cases ht : t = first
    · rw [if_pos (by simp [ht]), ih]
      simp [ht]
    · rw [if_neg (by simpa using Ne.symm ht), if_neg (by simp [ht])]

theorem arrayType_uniform (h : Uniform types type) :
    arrayType none (types.map .ok) = .ok (arrayOf type) := by
  cases types with
  | nil => exact absurd rfl h.some
  | cons first rest =>
    obtain ⟨rfl, hrest⟩ := List.forall_mem_cons.mp h.all
    show arrayType (some first) (rest.map .ok) = _
    rw [arrayType_seen, if_pos hrest]

theorem arrayType_mixed (h : Mixed types) : arrayType none (types.map .ok) = .ok "any[]" := by
  cases types with
  | nil => rfl
  | cons first rest =>
    show arrayType (some first) (rest.map .ok) = _
    rw [arrayType_seen, if_neg fun hrest =>
      Uniform.not_mixed ⟨by simp, List.forall_mem_cons.mpr ⟨rfl, hrest⟩⟩ h]

/-! ## Types with and without spaces -/

/-- The expressions that have the type of a function. -/
def Node.isFunction (n : Node) : Bool :=
  n.kind == "arrow_function" || n.kind == "function_expression" || n.kind == "function"

/-- The type that an expression asserts. -/
def Node.asserted? (n : Node) : Option Node :=
  if n.kind == "as_expression" then (named n.children).getLast? else none

/-- Unions, intersections, functions, constructors and conditional types: brackets behind one
belong to its last part alone. -/
def isLooseType : String → Bool
  | "union_type" | "intersection_type" | "function_type" | "constructor_type"
  | "conditional_type" => true
  | _ => false

/-- An expression whose type binds more loosely than brackets: a function, one that asserts
such a type, or an array of such elements that is shown without parentheses, so that its
brackets belong to the last part of their type. -/
inductive Node.IsLoose (src : List Char) : Node → Prop
  | function {n : Node} (h : n.unwrapped.isFunction = true) : n.IsLoose src
  | asserted {n note : Node} (h : note ∈ n.unwrapped.asserted?)
      (loose : isLooseType note.kind = true) : n.IsLoose src
  | array {n e : Node} {type : String} (h : n.unwrapped.kind = "array")
      (mem : e ∈ elements n.unwrapped.children) (loose : e.IsLoose src)
      (share : ∀ f ∈ elements n.unwrapped.children, inferType src true f = .ok type)
      (bare : inferType src true n = .ok (type ++ "[]")) : n.IsLoose src

/-- The expression inside of an element, in so many arrays whose elements share a type. -/
inductive Core (src : List Char) : Nat → Node → Node → Prop
  | here {n : Node} (h : n.unwrapped.kind ≠ "array") : Core src 0 n n.unwrapped
  | inside {depth : Nat} {n e core : Node} {type : String} (h : n.unwrapped.kind = "array")
      (mem : e ∈ elements n.unwrapped.children)
      (share : ∀ f ∈ elements n.unwrapped.children, inferType src true f = .ok type)
      (inner : Core src depth e core) : Core src (depth + 1) n core

theorem space_mem_functionTypeOf {parameters : Option (Reading String)}
    (h : functionTypeOf src cs parameters = .ok type) : ' ' ∈ type.toList := by
  obtain ⟨types, -, h⟩ := bind_eq_ok_iff.mp h
  have harrow : ∀ list : String, (do return types ++ list ++ " => " ++ (← returnType src cs)) =
      Except.ok (ε := WalkError) type → ' ' ∈ type.toList := by
    intro list hlist
    obtain ⟨result, -, hresult⟩ := bind_eq_ok_iff.mp hlist
    rw [← pure_eq_ok_iff.mp hresult]
    simp
  split at h
  all_goals
    obtain ⟨list, -, h⟩ := bind_eq_ok_iff.mp h
    exact harrow list h

theorem inferType_function {n : Node} {widen : Bool} (h : n.isFunction = true) :
    inferType src widen n = n.text src >>= fun _ =>
      functionTypeOf src n.children (parametersText src n.children) := by
  obtain ⟨l, cs⟩ := n
  rw [inferType]
  simp only [Node.isFunction, Bool.or_eq_true, beq_iff_eq] at h
  obtain (hk | hk) | hk := h
  all_goals
    rw [show l.kind = _ from hk]
    rfl

theorem inferType_asserted {n note : Node} {widen : Bool} (h : note ∈ n.asserted?) :
    inferType src widen n = n.text src >>= fun _ => note.compactText src := by
  obtain ⟨l, cs⟩ := n
  unfold Node.asserted? at h
  split at h
  · rename_i hk
    rw [inferType, show l.kind = _ from beq_iff_eq.mp hk]
    simp only [assertedType, show (named cs).getLast? = some note from h]
  · cases h

theorem inferType_array {n : Node} {widen : Bool} (h : n.kind = "array") :
    inferType src widen n =
      n.text src >>= fun _ => arrayType none ((elements n.children).map (inferType src true)) := by
  obtain ⟨l, cs⟩ := n
  rw [inferType, show l.kind = _ from h, elementTypes_eq]
  rfl

/-- The type of an array whose elements share one. -/
theorem inferType_shared {n e : Node} {result : String} (hk : n.unwrapped.kind = "array")
    (he : e ∈ elements n.unwrapped.children)
    (hshare : ∀ f ∈ elements n.unwrapped.children, inferType src true f = .ok type)
    (h : inferType src true n = .ok result) : result = arrayOf type := by
  have h := inferType_unwrapped h
  rw [inferType_array hk] at h
  obtain ⟨_, _, h⟩ := bind_eq_ok_iff.mp h
  have hmap : (elements n.unwrapped.children).map (inferType src true) =
      ((elements n.unwrapped.children).map fun _ => type).map .ok := by
    rw [List.map_map]
    exact List.map_congr_left hshare
  have huniform : Uniform ((elements n.unwrapped.children).map fun _ => type) type :=
    ⟨List.ne_nil_of_mem (List.mem_map_of_mem he), by simp⟩
  rw [hmap, arrayType_uniform huniform] at h
  exact (Except.ok.inj h).symm

/-- The type of an element is that of the expression inside, with the brackets of the
arrays around it. -/
theorem Core.inferType {depth : Nat} {e core : Node} (hcore : Core src depth e core)
    (h : inferType src true e = .ok type) :
    ∃ base, Tree.inferType src true core = .ok base ∧ type = arrayOf^[depth] base := by
  induction hcore generalizing type with
  | here _ => exact ⟨type, inferType_unwrapped h, rfl⟩
  | inside hk hmem hshare _ ih =>
    obtain ⟨base, hbase, rfl⟩ := ih (hshare _ hmem)
    refine ⟨base, hbase, ?_⟩
    rw [Function.iterate_succ_apply']
    exact inferType_shared hk hmem hshare h

/-- When a type has spaces that an expression has with the brackets of some arrays. -/
structure SpacedBy (src : List Char) (depth : Nat) (core : Node) (type : String) : Prop where
  /-- The type of a function has some. -/
  function : core.isFunction = true → ' ' ∈ type.toList
  /-- An asserted type has some when it is written in several pieces. -/
  asserted : ∀ note ∈ core.asserted?, ∃ text, note.text src = .ok text ∧
    type = arrayOf^[depth] (Text.compact text) ∧
      (' ' ∈ type.toList ↔ 2 ≤ (Text.fields text.toList).length)

theorem Core.spacedBy {depth : Nat} {e core : Node} (hcore : Core src depth e core)
    (h : Tree.inferType src true e = .ok type) : SpacedBy src depth core type := by
  obtain ⟨base, hbase, rfl⟩ := hcore.inferType h
  constructor
  · intro hf
    rw [inferType_function hf] at hbase
    obtain ⟨_, _, hbase⟩ := bind_eq_ok_iff.mp hbase
    exact (space_mem_arrayOf_iterate_iff depth).mpr (space_mem_functionTypeOf hbase)
  · intro note hnote
    rw [inferType_asserted hnote] at hbase
    obtain ⟨_, _, hbase⟩ := bind_eq_ok_iff.mp hbase
    obtain ⟨text, htext, rfl⟩ := map_eq_ok_iff.mp hbase
    exact ⟨text, htext, rfl,
      (space_mem_arrayOf_iterate_iff depth).trans Text.space_mem_compact_iff⟩

/-! ## Loose types without spaces -/

theorem arrayOf_bare (h : ' ' ∉ type.toList) : arrayOf type = type ++ "[]" := if_neg h

/-- A loose type without spaces comes from one that is asserted inside. -/
theorem Node.IsLoose.core {e : Node} (hloose : e.IsLoose src)
    (h : inferType src true e = .ok type) (hspace : ' ' ∉ type.toList) :
    ∃ depth core, Core src depth e core ∧
      ∃ note ∈ core.asserted?, isLooseType note.kind = true := by
  induction hloose generalizing type with
  | @function n hf =>
    have h := inferType_unwrapped h
    rw [inferType_function hf] at h
    obtain ⟨_, _, h⟩ := bind_eq_ok_iff.mp h
    exact absurd (space_mem_functionTypeOf h) hspace
  | @asserted n note hnote hloose =>
    have hk : n.unwrapped.kind ≠ "array" := by
      intro hk
      simp [Node.asserted?, hk] at hnote
    exact ⟨0, n.unwrapped, .here hk, note, hnote, hloose⟩
  | array hk hmem _ hshare _ ih =>
    obtain rfl := inferType_shared hk hmem hshare h
    obtain ⟨depth, core, hcore, hasserts⟩ :=
      ih (hshare _ hmem) fun hin => hspace (space_mem_arrayOf_iff.mpr hin)
    exact ⟨depth + 1, core, .inside hk hmem hshare hcore, hasserts⟩

/-- Around a loose type that is asserted without spaces everything is loose. -/
theorem Core.isLoose {depth : Nat} {e core note : Node} (hcore : Core src depth e core)
    (hnote : note ∈ core.asserted?) (hloose : isLooseType note.kind = true)
    (h : Tree.inferType src true e = .ok type) (hspace : ' ' ∉ type.toList) : e.IsLoose src := by
  induction hcore generalizing type with
  | here _ => exact .asserted hnote hloose
  | inside hk hmem hshare _ ih =>
    obtain rfl := inferType_shared hk hmem hshare h
    rw [space_mem_arrayOf_iff] at hspace
    exact .array hk hmem (ih hnote (hshare _ hmem) hspace) hshare (by rw [h, arrayOf_bare hspace])

/-! ## Arrays of their elements -/

/-- The type of an array denotes an array of its elements: the type they share is in
parentheses if it binds more loosely than the brackets. -/
inductive DenotesArray (src : List Char) (es : List Node) (types : List String) : String → Prop
  | mixed (differ : Mixed types) : DenotesArray src es types "any[]"
  | grouped {type : String} (share : Uniform types type) :
      DenotesArray src es types ("(" ++ type ++ ")[]")
  | plain {type : String} (share : Uniform types type) (tight : ∀ e ∈ es, ¬e.IsLoose src) :
      DenotesArray src es types (type ++ "[]")

/-- An array type without parentheses denotes an array of tight elements only. -/
theorem DenotesArray.tight {es : List Node} (h : DenotesArray src es types (type ++ "[]"))
    (hu : Uniform types type) : ∀ e ∈ es, ¬e.IsLoose src := by
  generalize hresult : type ++ "[]" = result at h
  cases h with
  | mixed differ => exact absurd differ hu.not_mixed
  | grouped share =>
    obtain rfl := hu.unique share
    have hlength := congrArg (fun s : String => s.toList.length) hresult
    simp at hlength
  | plain _ tight => exact tight

theorem denotesArray_iff {es : List Node} (hu : Uniform types type)
    (htype : ∀ e ∈ es, inferType src true e = .ok type) :
    DenotesArray src es types (arrayOf type) ↔ ∀ e ∈ es, ∀ depth core, Core src depth e core →
      ∀ note ∈ core.asserted?, isLooseType note.kind = true → ' ' ∈ type.toList := by
  rw [arrayOf]
  split
  · rename_i hspace
    exact ⟨fun _ _ _ _ _ _ _ _ _ => hspace, fun _ => .grouped hu⟩
  · rename_i hspace
    constructor
    · intro h e he depth core hcore note hnote hloose
      exact absurd (hcore.isLoose hnote hloose (htype e he) hspace) (h.tight hu e he)
    · refine fun h => .plain hu fun e he hloose => hspace ?_
      obtain ⟨depth, core, hcore, note, hnote, hloose⟩ := hloose.core (htype e he) hspace
      exact h e he depth core hcore note hnote hloose

/-- An array of elements that share a type shows it with brackets, and in parentheses when
it has spaces in it; without a shared type it shows `any`. An element that is an array in
turn is read in the same way, so a type is as spaced as the expression inside of all
arrays makes it. The type of a function always has spaces, and so the array denotes one of
its elements exactly when the unions, functions and the like that are asserted inside are
written in several pieces. -/
theorem arrays_denote_elements {widen : Bool} (hk : l.kind = "array")
    (hfits : (Node.mk l cs).Fits src) :
    ∃ types result, (elements cs).map (inferType src true) = types.map .ok ∧
      inferType src widen (.mk l cs) = .ok result ∧
      (Mixed types → result = "any[]") ∧
      ∀ type, Uniform types type → result = arrayOf type ∧
        (∀ e ∈ elements cs, ∀ depth core, Core src depth e core →
          SpacedBy src depth core type) ∧
        (DenotesArray src (elements cs) types result ↔
          ∀ e ∈ elements cs, ∀ depth core, Core src depth e core →
            ∀ note ∈ core.asserted?, isLooseType note.kind = true → ' ' ∈ type.toList) := by
  obtain ⟨types, htypes⟩ : Succeeds ((elements cs).mapM (inferType src true)) :=
    succeeds_mapM fun e he => inferType_succeeds
      (hfits.children e (mem_of_mem_named (List.mem_filter.mp he).1))
  obtain ⟨text, htext⟩ := Node.text_succeeds hfits
  have hmap := mapM_eq_ok_iff.mp htypes
  have harray : inferType src widen (.mk l cs) = arrayType none (types.map .ok) := by
    rw [inferType_array (n := .mk l cs) hk, htext, Node.children, hmap]
    rfl
  rcases mixed_or_uniform types with hm | ⟨type, hu⟩
  · exact ⟨types, "any[]", hmap, harray.trans (arrayType_mixed hm), fun _ => rfl,
      fun type hu => absurd hm hu.not_mixed⟩
  · refine ⟨types, arrayOf type, hmap, harray.trans (arrayType_uniform hu),
      fun hm => absurd hm hu.not_mixed, fun other hother => ?_⟩
    obtain rfl := hu.unique hother
    have htype : ∀ e ∈ elements cs, inferType src true e = .ok type := by
      intro e he
      obtain ⟨t, ht⟩ := ok_of_mapM htypes he
      obtain rfl := hu.all t ((mem_mapM_iff htypes).mpr ⟨e, he, ht⟩)
      exact ht
    exact ⟨rfl, fun e he depth core hcore => hcore.spacedBy (htype e he),
      denotesArray_iff hu htype⟩

/-- The children of `[x as T]` for a union `T`. -/
def unionElement (union : Node) : List Node :=
  [.mk ⟨"[", false, false, false, ⟨0, 1⟩, []⟩ [],
    .mk ⟨"as_expression", true, false, false, ⟨1, union.span.stop⟩, []⟩
      [.mk ⟨"identifier", true, false, false, ⟨1, 2⟩, []⟩ [],
        .mk ⟨"as", false, false, false, ⟨3, 5⟩, []⟩ [], union],
    .mk ⟨"]", false, false, false, ⟨union.span.stop, union.span.stop + 1⟩, []⟩ []]

def arrayLabel (stop : Nat) : Label := ⟨"array", true, false, false, ⟨0, stop⟩, []⟩

/-- The union at byte 6, with its bar at another byte. -/
def unionAt (bar stop : Nat) : Node :=
  .mk ⟨"union_type", true, false, false, ⟨6, stop⟩, []⟩
    [.mk ⟨"type_identifier", true, false, false, ⟨6, 7⟩, []⟩ [],
      .mk ⟨"|", false, false, false, ⟨bar, bar + 1⟩, []⟩ [],
      .mk ⟨"type_identifier", true, false, false, ⟨stop - 1, stop⟩, []⟩ []]

/-- Spaces around the bar put the union in parentheses. -/
theorem arrays_denote_elements_spaced :
    let src := "[x as A | B]".toList
    let cs := unionElement (unionAt 8 11)
    (Node.mk (arrayLabel 12) cs).Fits src ∧ Uniform ["A | B"] "A | B" ∧
      inferType src true (.mk (arrayLabel 12) cs) = .ok "(A | B)[]" ∧
      DenotesArray src (elements cs) ["A | B"] "(A | B)[]" := by
  intro src cs
  have hfits : (Node.mk (arrayLabel 12) cs).Fits src := by
    simp only [cs, unionElement, unionAt, arrayLabel, Node.Fits, Node.All, allNodes]
    decide
  have huniform : Uniform ["A | B"] "A | B" := ⟨by simp, by simp⟩
  obtain ⟨types, result, htypes, hresult, -, hshared⟩ :=
    @arrays_denote_elements src (arrayLabel 12) cs true rfl hfits
  obtain rfl : ["A | B"] = types :=
    (List.map_inj_right fun _ _ => Except.ok.inj).mp ((by rfl : _ = _).trans htypes)
  obtain ⟨rfl, -, hdenotes⟩ := hshared "A | B" huniform
  refine ⟨hfits, huniform, hresult, hdenotes.mpr fun _ _ _ _ _ _ _ _ => by decide⟩

/-- `x as A|B` at byte 2. -/
def asserting : Node :=
  .mk ⟨"as_expression", true, false, false, ⟨2, 10⟩, []⟩
    [.mk ⟨"identifier", true, false, false, ⟨2, 3⟩, []⟩ [],
      .mk ⟨"as", false, false, false, ⟨4, 6⟩, []⟩ [],
      .mk ⟨"union_type", true, false, false, ⟨7, 10⟩, []⟩ []]

/-- The array `[[x as A|B]]`. -/
def arrayOfArrays : Node :=
  .mk (arrayLabel 12)
    [.mk ⟨"[", false, false, false, ⟨0, 1⟩, []⟩ [],
      .mk ⟨"array", true, false, false, ⟨1, 11⟩, []⟩
        [.mk ⟨"[", false, false, false, ⟨1, 2⟩, []⟩ [], asserting,
          .mk ⟨"]", false, false, false, ⟨10, 11⟩, []⟩ []],
      .mk ⟨"]", false, false, false, ⟨11, 12⟩, []⟩ []]

/-- Without spaces the brackets belong to the second member of the union, and in an array
of arrays those of both do. -/
theorem arrays_denote_elements_unspaced :
    let src := "[x as A|B]".toList
    let cs := unionElement (unionAt 7 9)
    ((elements cs).map (inferType src true) = [.ok "A|B"] ∧
      inferType src true (.mk (arrayLabel 10) cs) = .ok "A|B[]" ∧
      ¬DenotesArray src (elements cs) ["A|B"] "A|B[]") ∧
    let outer := "[[x as A|B]]".toList
    (elements arrayOfArrays.children).map (inferType outer true) = [.ok "A|B[]"] ∧
      inferType outer true arrayOfArrays = .ok "A|B[][]" ∧
      ¬DenotesArray outer (elements arrayOfArrays.children) ["A|B[]"] "A|B[][]" := by
  intro src cs
  refine ⟨⟨by rfl, by rfl, fun h => ?_⟩, ?_⟩
  · have huniform : Uniform ["A|B"] "A|B" := ⟨by simp, by simp⟩
    exact DenotesArray.tight (show DenotesArray _ _ _ ("A|B" ++ "[]") from h) huniform _
      (List.mem_singleton.mpr rfl) (.asserted (show unionAt 7 9 ∈ _ from rfl) rfl)
  · intro outer
    refine ⟨by rfl, by rfl, fun h => ?_⟩
    have huniform : Uniform ["A|B[]"] "A|B[]" := ⟨by simp, by simp⟩
    refine DenotesArray.tight (show DenotesArray _ _ _ ("A|B[]" ++ "[]") from h) huniform _
      (List.mem_singleton.mpr rfl) ?_
    have hshare (f : Node) (hf : f ∈ [asserting]) : inferType outer true f = .ok "A|B" := by
      obtain rfl := List.mem_singleton.mp hf
      rfl
    refine .array rfl (List.mem_singleton.mpr rfl) ?_ hshare (by rfl)
    exact .asserted (show .mk ⟨"union_type", true, false, false, ⟨7, 10⟩, []⟩ [] ∈ _ from rfl) rfl

end HoverTips.Tree
