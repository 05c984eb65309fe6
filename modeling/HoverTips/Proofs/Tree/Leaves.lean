import HoverTips.Proofs.Tree.Results
import HoverTips.Tree.Initializer

/-! # Leaves of types

A type is flattened into its leaves: the members of its unions, however they are
nested, without the parentheses around them. A leaf is a primitive type, a literal
type or something that the check does not know, and on its own it accepts a literal,
refuses it or leaves the matter open (`Leaf.verdict_decided`). Types whose unions are
rearranged have the same leaves (`Regrouped.readLeaves`). -/

namespace HoverTips.Tree

/-! ## Flattening -/

mutual

/-- What is left of a type without unions and parentheses around it. Parentheses
that hold no rule stay. -/
def Node.leaves : Node → List Node
  | .mk l cs =>
    match l.kind with
    | "union_type" => memberLeaves cs
    | "parenthesized_type" => (innerLeaves cs).getD [.mk l cs]
    | _ => [.mk l cs]

/-- The leaves of all rules among the children. -/
def memberLeaves : List Node → List Node
  | [] => []
  | c :: cs => if c.isNamed then c.leaves ++ memberLeaves cs else memberLeaves cs

/-- The leaves of the first rule among the children. -/
def innerLeaves : List Node → Option (List Node)
  | [] => none
  | c :: cs => if c.isNamed then some c.leaves else innerLeaves cs

end

theorem memberLeaves_eq (cs : List Node) : memberLeaves cs = (named cs).flatMap Node.leaves := by
  induction cs with
  | nil => rfl
  | cons c cs ih =>
    rw [memberLeaves, ih, named, named, List.filter_cons]
    split
    · rw [List.flatMap_cons]
    · rfl

theorem innerLeaves_eq (cs : List Node) : innerLeaves cs = (firstNamed? cs).map Node.leaves := by
  induction cs with
  | nil => rfl
  | cons c cs ih =>
    rw [innerLeaves, ih, firstNamed?, firstNamed?, List.find?_cons]
    split <;> simp_all

theorem leaves_union {l : Label} {cs : List Node} (h : l.kind = "union_type") :
    (Node.mk l cs).leaves = (named cs).flatMap Node.leaves := by
  rw [Node.leaves, h]
  exact memberLeaves_eq cs

theorem leaves_plain {l : Label} {cs : List Node} (hu : l.kind ≠ "union_type")
    (hp : l.kind ≠ "parenthesized_type") : (Node.mk l cs).leaves = [.mk l cs] := by
  rw [Node.leaves]
  split
  · contradiction
  · contradiction
  · rfl

theorem leaves_parentheses {l : Label} {cs : List Node} {c : Node}
    (h : l.kind = "parenthesized_type") (hc : firstNamed? cs = some c) :
    (Node.mk l cs).leaves = c.leaves := by
  rw [Node.leaves, h, innerLeaves_eq, hc]
  rfl

theorem mem_leaves_union {l : Label} {cs : List Node} {n : Node} (h : l.kind = "union_type") :
    n ∈ (Node.mk l cs).leaves ↔ ∃ c ∈ named cs, n ∈ c.leaves := by
  rw [leaves_union h, List.mem_flatMap]

/-- Two types that differ in the order, the grouping, the repetition or the
parentheses of the members of unions, at any depth. -/
inductive Regrouped : Node → Node → Prop
  | refl (type : Node) : Regrouped type type
  | symm {type type' : Node} (h : Regrouped type type') : Regrouped type' type
  | trans {type type' type'' : Node} (h : Regrouped type type') (h' : Regrouped type' type'') :
      Regrouped type type''
  | order {l l' : Label} {cs cs' : List Node} (hl : l.kind = "union_type")
      (hl' : l'.kind = "union_type") (h : (named cs).Perm (named cs')) :
      Regrouped (.mk l cs) (.mk l' cs')
  | grouping {l l' m : Label} {cs cs' inner before after : List Node}
      (hl : l.kind = "union_type") (hl' : l'.kind = "union_type") (hm : m.kind = "union_type")
      (h : named cs = before ++ .mk m inner :: after)
      (h' : named cs' = before ++ named inner ++ after) : Regrouped (.mk l cs) (.mk l' cs')
  | repetition {l l' : Label} {cs cs' : List Node} {c : Node} (hl : l.kind = "union_type")
      (hl' : l'.kind = "union_type") (hc : c ∈ named cs) (h : named cs' = c :: named cs) :
      Regrouped (.mk l cs) (.mk l' cs')
  | parentheses {l : Label} {cs : List Node} {c : Node} (hl : l.kind = "parenthesized_type")
      (hc : firstNamed? cs = some c) : Regrouped (.mk l cs) c
  | member {l l' : Label} {cs cs' before after : List Node} {c c' : Node}
      (hl : l.kind = "union_type") (hl' : l'.kind = "union_type")
      (h : named cs = before ++ c :: after) (h' : named cs' = before ++ c' :: after)
      (hc : Regrouped c c') : Regrouped (.mk l cs) (.mk l' cs')

theorem Regrouped.mem_leaves {type type' : Node} (h : Regrouped type type') (n : Node) :
    n ∈ type.leaves ↔ n ∈ type'.leaves := by
  induction h with
  | refl => exact Iff.rfl
  | symm _ ih => exact ih.symm
  | trans _ _ ih ih' => exact ih.trans ih'
  | order hl hl' h =>
    rw [mem_leaves_union hl, mem_leaves_union hl']
    exact exists_congr fun c => and_congr_left fun _ => h.mem_iff
  | grouping hl hl' hm h h' =>
    rw [leaves_union hl, leaves_union hl', h, h']
    simp [leaves_union hm]
  | repetition hl hl' hc h =>
    rw [leaves_union hl, leaves_union hl', h, List.flatMap_cons, List.mem_append]
    exact (or_iff_right_of_imp fun hn => List.mem_flatMap.mpr ⟨_, hc, hn⟩).symm
  | parentheses hl hc => rw [leaves_parentheses hl hc]
  | member hl hl' h h' _ ih =>
    rw [leaves_union hl, leaves_union hl', h, h']
    simp [ih]

/-! ## What leaves say -/

/-- What a leaf says: the name of a primitive type, the literal of a literal type,
or nothing that the check knows. -/
inductive Leaf where
  | primitive (name : String)
  | literal (target : Option Literal)
  | unmodelled
  deriving DecidableEq, Repr

theorem LiteralBase.name_injective : Function.Injective LiteralBase.name := by
  intro a b
  cases a <;> cases b <;> decide

namespace Leaf

def isLiteral : Leaf → Bool
  | literal _ => true
  | _ => false

/-- The leaf is a type of every value, the type that the literal belongs to, or a
literal type that is shown like the literal. -/
inductive Accepts (l : Literal) : Leaf → Prop
  | anything {name : String} (h : name = "any" ∨ name = "unknown") : Accepts l (.primitive name)
  | base (h : l.base ≠ .null ∧ l.base ≠ .undefined) : Accepts l (.primitive l.base.name)
  | alike {target : Literal} (hbase : target.base = l.base) (hshown : target.shown = l.shown) :
      Accepts l (.literal (some target))

/-- The names of the primitive types that have some values and not others. -/
def modelledNames : List String :=
  ["number", "string", "boolean", "bigint", "symbol", "object", "never", "void"]

/-- The leaf is a type that the check knows, and the literal is not of that type. -/
inductive Refuses (l : Literal) : Leaf → Prop
  | primitive {name : String} (h : name ∈ modelledNames) (hbase : name ≠ l.base.name) :
      Refuses l (.primitive name)
  | literal {target : Literal} (h : ¬(target.base = l.base ∧ target.shown = l.shown)) :
      Refuses l (.literal (some target))

instance (l : Literal) : (leaf : Leaf) → Decidable (leaf.Refuses l)
  | .primitive name => decidable_of_iff (name ∈ modelledNames ∧ name ≠ l.base.name)
      ⟨fun h => .primitive h.1 h.2, fun | .primitive h hbase => ⟨h, hbase⟩⟩
  | .literal none => isFalse nofun
  | .literal (some target) =>
    decidable_of_iff (¬(target.base = l.base ∧ target.shown = l.shown))
      ⟨.literal, fun | .literal h => h⟩
  | .unmodelled => isFalse nofun

theorem Refuses.not_accepts {l : Literal} {leaf : Leaf} (h : leaf.Refuses l) :
    ¬leaf.Accepts l := by
  intro ha
  cases h with
  | primitive hmodelled hbase =>
    cases ha with
    | anything hany => rcases hany with rfl | rfl <;> simp [modelledNames] at hmodelled
    | base => exact hbase rfl
  | literal hother =>
    cases ha with
    | alike hbase hshown => exact hother ⟨hbase, hshown⟩

/-- The verdict of a leaf on its own. -/
def verdict (l : Literal) : Leaf → Verdict
  | primitive name => primitiveVerdict l.base name
  | literal target => literalVerdict l target
  | unmodelled => .unknown

/-- What the verdict of a leaf says about it. -/
def Decided (l : Literal) (leaf : Leaf) (v : Verdict) : Prop :=
  (v = .accepts ∧ leaf.Accepts l) ∨ (v = .refuses leaf.isLiteral ∧ leaf.Refuses l) ∨
    (v = .unknown ∧ ¬leaf.Accepts l ∧ ¬leaf.Refuses l)

theorem base_name_modelled {b : LiteralBase} (h : b ≠ .null ∧ b ≠ .undefined) :
    b.name ∈ modelledNames := by
  cases b <;> simp_all [modelledNames, LiteralBase.name]

theorem decided_base {l : Literal} (hl : l.base ≠ .null ∧ l.base ≠ .undefined) {b : LiteralBase}
    (hb : b.name ∈ modelledNames) :
    (primitive b.name).Decided l (if l.base = b then .accepts else .refuses false) := by
  split
  · rename_i h
    exact .inl ⟨rfl, h ▸ .base hl⟩
  · rename_i h
    exact .inr (.inl ⟨rfl, .primitive hb fun he => h (LiteralBase.name_injective he).symm⟩)

/-- A leaf accepts, refuses or is not known, and a literal type that refuses says so. -/
theorem verdict_decided {l : Literal} (hl : l.base ≠ .null ∧ l.base ≠ .undefined) (leaf : Leaf) :
    leaf.Decided l (leaf.verdict l) := by
  cases leaf with
  | primitive name =>
    show Decided l (primitive name) (primitiveVerdict l.base name)
    unfold primitiveVerdict
    split
    case h_1 => exact .inl ⟨rfl, .anything (.inl rfl)⟩
    case h_2 => exact .inl ⟨rfl, .anything (.inr rfl)⟩
    case h_3 => exact decided_base (b := .number) hl (by decide)
    case h_4 => exact decided_base (b := .string) hl (by decide)
    case h_5 => exact decided_base (b := .boolean) hl (by decide)
    case h_6 => exact decided_base (b := .bigint) hl (by decide)
    case h_7 | h_8 | h_9 | h_10 =>
      exact .inr (.inl ⟨rfl, .primitive (by decide) (by cases l.base <;> decide)⟩)
    case h_11 =>
      have hunknown : name ∉ modelledNames := by simp_all [modelledNames]
      refine .inr (.inr ⟨rfl, fun ha => ?_, fun hr => ?_⟩)
      · cases ha with
        | anything h => rcases h with h | h <;> contradiction
        | base h => exact hunknown (base_name_modelled h)
      · cases hr with
        | primitive h _ => exact hunknown h
  | literal target =>
    show Decided l (literal target) (literalVerdict l target)
    unfold literalVerdict
    split
    · exact .inr (.inr ⟨rfl, nofun, nofun⟩)
    · split
      · rename_i h
        exact .inl ⟨rfl, .alike h.1 h.2⟩
      · rename_i h
        exact .inr (.inl ⟨rfl, .literal h⟩)
  | unmodelled => exact .inr (.inr ⟨rfl, nofun, nofun⟩)

end Leaf

/-- What a leaf of a type says. -/
def Node.leaf (src : List Char) (n : Node) : Reading Leaf :=
  match n.kind with
  | "predefined_type" => .primitive <$> n.text src
  | "literal_type" => .literal <$> literalOfType src n.children
  | _ => .ok .unmodelled

/-- What the leaves of a type say. -/
def Node.readLeaves (src : List Char) (type : Node) : Reading (List Leaf) :=
  type.leaves.mapM (·.leaf src)

variable {src : List Char}

/-- Types with the same leaves have the same to say. -/
theorem Regrouped.readLeaves {type type' : Node} {leaves : List Leaf} (h : Regrouped type type')
    (hread : type.readLeaves src = .ok leaves) :
    ∃ leaves', type'.readLeaves src = .ok leaves' ∧ ∀ leaf, leaf ∈ leaves' ↔ leaf ∈ leaves := by
  obtain ⟨leaves', hread'⟩ : Succeeds (type'.readLeaves src) :=
    succeeds_mapM fun n hn => ok_of_mapM hread ((h.mem_leaves n).mpr hn)
  refine ⟨leaves', hread', fun leaf => ?_⟩
  rw [mem_mapM_iff hread', mem_mapM_iff hread]
  exact exists_congr fun n => and_congr_left fun _ => (h.mem_leaves n).symm

end HoverTips.Tree
