import HoverTips.Tree.Node

/-! # Properties of all nodes of a tree

A property of labels holds throughout a tree when the node has it and every
child has it throughout. It then holds of all that a walk meets: the visited
nodes, and the ancestors that are looked at beside them (`All.visits`). -/

namespace HoverTips.Tree

/-- The node and everything below it, in pre-order. -/
def Node.nodes (n : Node) : List Node := (n.visits []).map (·.node)

mutual

/-- The visited nodes do not depend on the ancestors. -/
theorem Node.visits_map_node (ancestors : List Node) :
    ∀ n : Node, (n.visits ancestors).map (·.node) = n.nodes
  | .mk l cs => by
    rw [Node.nodes, Node.visits, Node.visits, List.map_cons, List.map_cons,
      visitsAll_map_node, visitsAll_map_node]

theorem visitsAll_map_node (ancestors : List Node) :
    ∀ cs : List Node, (visitsAll ancestors cs).map (·.node) = cs.flatMap Node.nodes
  | [] => rfl
  | c :: cs => by
    rw [visitsAll, List.map_append, Node.visits_map_node, visitsAll_map_node, List.flatMap_cons]

end

theorem Node.nodes_mk (l : Label) (cs : List Node) :
    (Node.mk l cs).nodes = .mk l cs :: cs.flatMap Node.nodes := by
  rw [Node.nodes, Node.visits, List.map_cons, visitsAll_map_node]

mutual

/-- Whether a property of labels holds of the node and everything below it. -/
def Node.All (p : Label → Prop) : Node → Prop
  | .mk l cs => p l ∧ allNodes p cs

/-- Whether a property of labels holds throughout some siblings. -/
def allNodes (p : Label → Prop) : List Node → Prop
  | [] => True
  | c :: cs => c.All p ∧ allNodes p cs

end

variable {p : Label → Prop}

theorem allNodes_iff {cs : List Node} : allNodes p cs ↔ ∀ c ∈ cs, c.All p := by
  induction cs with
  | nil => simp [allNodes]
  | cons c cs ih => rw [allNodes, ih, List.forall_mem_cons]

theorem Node.All.label {n : Node} (h : n.All p) : p n.label := by
  cases n
  exact h.1

theorem Node.All.children {n : Node} (h : n.All p) : ∀ c ∈ n.children, c.All p := by
  cases n
  exact allNodes_iff.mp h.2

mutual

/-- What goes over from every node to its children goes over to all that a walk looks at. -/
theorem Node.visits_of_children {P : Node → Prop} (hP : ∀ n, P n → ∀ c ∈ n.children, P c)
    {ancestors : List Node} (ha : ∀ a ∈ ancestors, P a) :
    ∀ {n : Node}, P n → ∀ v ∈ n.visits ancestors, P v.node ∧ ∀ a ∈ v.ancestors, P a
  | .mk l cs, h, v, hv => by
    rw [Node.visits] at hv
    rcases List.mem_cons.mp hv with rfl | hv
    · exact ⟨h, ha⟩
    · exact visitsAll_of_children hP (List.forall_mem_cons.mpr ⟨h, ha⟩) (hP _ h) v hv

theorem visitsAll_of_children {P : Node → Prop} (hP : ∀ n, P n → ∀ c ∈ n.children, P c)
    {ancestors : List Node} (ha : ∀ a ∈ ancestors, P a) :
    ∀ {cs : List Node}, (∀ c ∈ cs, P c) →
      ∀ v ∈ visitsAll ancestors cs, P v.node ∧ ∀ a ∈ v.ancestors, P a
  | [], _, v, hv => by simp [visitsAll] at hv
  | c :: cs, h, v, hv => by
    rw [List.forall_mem_cons] at h
    rw [visitsAll] at hv
    rcases List.mem_append.mp hv with hv | hv
    · exact Node.visits_of_children hP ha h.1 v hv
    · exact visitsAll_of_children hP ha h.2 v hv

end

/-- What holds throughout a tree holds throughout every part a walk looks at. -/
theorem Node.All.visits {ancestors : List Node} {n : Node} (ha : ∀ a ∈ ancestors, a.All p)
    (h : n.All p) : ∀ v ∈ n.visits ancestors, v.node.All p ∧ ∀ a ∈ v.ancestors, a.All p :=
  Node.visits_of_children (fun _ h => h.children) ha h

/-- What holds of all nodes of a tree holds of all nodes below its children. -/
theorem Node.forall_nodes_children {P : Node → Prop} {n : Node} (h : ∀ m ∈ n.nodes, P m) :
    ∀ c ∈ n.children, ∀ m ∈ c.nodes, P m := by
  intro c hc m hm
  cases n
  refine h m ?_
  rw [Node.nodes_mk]
  exact List.mem_cons_of_mem _ (List.mem_flatMap.mpr ⟨c, hc, hm⟩)

theorem Node.mem_nodes_self (n : Node) : n ∈ n.nodes := by
  cases n
  simp [Node.nodes_mk]

mutual

/-- What holds of every visited label holds throughout the tree. -/
theorem Node.all_of_visits {ancestors : List Node} :
    ∀ {n : Node}, (∀ v ∈ n.visits ancestors, p v.node.label) → n.All p
  | .mk l cs, h => by
    rw [Node.visits, List.forall_mem_cons] at h
    exact ⟨h.1, allNodes_of_visits h.2⟩

theorem allNodes_of_visits {ancestors : List Node} :
    ∀ {cs : List Node}, (∀ v ∈ visitsAll ancestors cs, p v.node.label) → allNodes p cs
  | [], _ => trivial
  | c :: cs, h => by
    rw [visitsAll, List.forall_mem_append] at h
    exact ⟨Node.all_of_visits h.1, allNodes_of_visits h.2⟩

end

theorem Node.all_iff {n : Node} : n.All p ↔ ∀ m ∈ n.nodes, p m.label := by
  rw [Node.nodes, List.forall_mem_map]
  exact ⟨fun h v hv => (h.visits (by simp) v hv).1.label, Node.all_of_visits⟩

/-- What holds throughout a tree holds throughout each of its nodes. -/
theorem Node.All.of_mem_nodes {n m : Node} (h : n.All p) (hm : m ∈ n.nodes) : m.All p := by
  obtain ⟨v, hv, rfl⟩ := List.mem_map.mp hm
  exact (h.visits (by simp) v hv).1

theorem field?_mem {name : String} {cs : List Node} {c : Node} (h : field? name cs = some c) :
    c ∈ cs := List.mem_of_find?_eq_some h

theorem field?_cons (name : String) (c : Node) (cs : List Node) :
    field? name (c :: cs) = if c.fills name then some c else field? name cs := by
  rw [field?, List.find?_cons]
  cases c.fills name <;> rfl

theorem firstNamed?_mem {cs : List Node} {c : Node} (h : firstNamed? cs = some c) : c ∈ cs :=
  List.mem_of_find?_eq_some h

theorem mem_of_mem_named {cs : List Node} {c : Node} (h : c ∈ named cs) : c ∈ cs :=
  (List.mem_filter.mp h).1

/-- A property of nodes holds of all of them if it holds of those that do not wrap another
one, and a node that wraps another one gets it from the first rule in it. -/
@[elab_as_elim]
theorem Node.wrapped_induction (wraps : String → Bool) {P : Node → Prop}
    (plain : ∀ l cs, wraps l.kind = false → P (.mk l cs))
    (empty : ∀ l cs, wraps l.kind = true → firstNamed? cs = none → P (.mk l cs))
    (wrapped : ∀ l cs c, wraps l.kind = true → firstNamed? cs = some c → P c → P (.mk l cs)) :
    ∀ n, P n
  | .mk l cs => by
    cases hw : wraps l.kind with
    | false => exact plain l cs hw
    | true =>
      cases hc : firstNamed? cs with
      | none => exact empty l cs hw hc
      | some c =>
        have hlt := List.sizeOf_lt_of_mem (firstNamed?_mem hc)
        exact wrapped l cs c hw hc (wrapped_induction wraps plain empty wrapped c)
  termination_by n => sizeOf n
  decreasing_by simp only [Node.mk.sizeOf_spec]; omega

/-- A rule from one byte to another. -/
def ruleAt (kind : String) (start stop : Nat) (fields : List String) (children : List Node) :
    Node :=
  .mk ⟨kind, true, false, false, ⟨start, stop⟩, fields⟩ children

end HoverTips.Tree
