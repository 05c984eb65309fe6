import HoverTips.Tree.TypeText
import HoverTips.Proofs.Tree.Nodes
import HoverTips.Proofs.Tree.Results

/-! # Returns of a body

A return belongs to the innermost callable or class around it. A body is searched for
returns with a value through all nodes but six forms of callables and classes, so it reads
as `void` when all such returns stand inside these. Generator expressions, methods of
object literals and abstract classes are not among the six: their returns are taken for
those of the body around them (`void_unless_returns`). -/

namespace HoverTips.Tree

variable {src : List Char} {cs : List Node} {scopes : String → Bool} {n m : Node}

/-! ## Returns below a node -/

/-- A return statement with a value. -/
structure Node.GivesValue (n : Node) : Prop where
  rule : n.isNamed = true
  kind : n.kind = "return_statement"
  value : ∃ c ∈ named n.children, c.kind ≠ "comment"

/-- The nodes that stand below a node in none of some scopes. What stands in a return
statement is its value. -/
inductive Node.Reaches (scopes : String → Bool) : Node → Node → Prop
  | child {n m : Node} (mem : m ∈ n.children) (rule : m.isNamed = true) : Reaches scopes n m
  | deeper {n c m : Node} (mem : c ∈ n.children) (rule : c.isNamed = true)
      (unscoped : scopes c.kind = false) (statement : c.kind ≠ "return_statement")
      (rest : Reaches scopes c m) : Reaches scopes n m

/-- A return with a value stands below a node in none of some scopes. -/
def Node.HasReturn (scopes : String → Bool) (n : Node) : Prop :=
  ∃ m, n.Reaches scopes m ∧ m.GivesValue

/-- A child that is such a return, or has one below it. -/
def Node.Returns (scopes : String → Bool) (c : Node) : Prop :=
  c.GivesValue ∨ scopes c.kind = false ∧ c.kind ≠ "return_statement" ∧ c.HasReturn scopes

theorem hasReturn_iff :
    n.HasReturn scopes ↔ ∃ c ∈ n.children, c.isNamed = true ∧ c.Returns scopes := by
  constructor
  · rintro ⟨m, hreach, hgives⟩
    cases hreach with
    | child mem rule => exact ⟨m, mem, rule, .inl hgives⟩
    | deeper mem rule unscoped statement rest =>
      exact ⟨_, mem, rule, .inr ⟨unscoped, statement, m, rest, hgives⟩⟩
  · rintro ⟨c, mem, rule, hgives | ⟨unscoped, statement, m, rest, hgives⟩⟩
    · exact ⟨c, .child mem rule, hgives⟩
    · exact ⟨m, .deeper mem rule unscoped statement rest, hgives⟩

theorem anyReturnsValue_iff (cs : List Node) :
    anyReturnsValue cs = true ↔ ∃ c ∈ cs, c.isNamed = true ∧ c.returnsValue = true := by
  induction cs with
  | nil => simp [anyReturnsValue]
  | cons c cs ih => simp only [anyReturnsValue, Bool.or_eq_true, Bool.and_eq_true, ih,
      List.mem_cons, exists_eq_or_imp]

/-- The search finds the returns below a rule that stand in none of the six scopes. -/
theorem returnsValue_iff : ∀ n : Node, n.isNamed = true →
    (n.returnsValue = true ↔ n.Returns ownsReturns)
  | .mk l cs, hnamed => by
    have hbelow : anyReturnsValue cs = true ↔ (Node.mk l cs).HasReturn ownsReturns := by
      rw [anyReturnsValue_iff, hasReturn_iff]
      refine exists_congr fun c => and_congr_right fun hc => and_congr_right fun hnamed => ?_
      have hlt := List.sizeOf_lt_of_mem hc
      exact returnsValue_iff c hnamed
    rw [Node.returnsValue]
    split
    · rename_i hk
      have hk := beq_iff_eq.mp hk
      rw [List.any_eq_true]
      refine ⟨fun ⟨c, hc, hne⟩ => .inl ⟨hnamed, hk, c, hc, by simpa using hne⟩, ?_⟩
      rintro (h | ⟨_, hne, _⟩)
      · obtain ⟨c, hc, hne⟩ := h.value
        exact ⟨c, hc, by simpa using hne⟩
      · exact absurd hk hne
    · rename_i hk
      have hk : l.kind ≠ "return_statement" := fun h => hk (beq_iff_eq.mpr h)
      have hgives : ¬(Node.mk l cs).GivesValue := fun h => hk h.kind
      split
      · rename_i howns
        refine ⟨nofun, ?_⟩
        rintro (h | ⟨hopen, _⟩)
        · exact absurd h hgives
        · rw [show ownsReturns l.kind = false from hopen] at howns
          cases howns
      · rename_i howns
        rw [hbelow]
        exact ⟨fun h => .inr ⟨Bool.eq_false_iff.mpr howns, hk, h⟩,
          fun h => (h.resolve_left hgives).2.2⟩
  termination_by n => sizeOf n
  decreasing_by simp only [Node.mk.sizeOf_spec]; omega

/-! ## Callables and classes -/

/-- The callables and classes that the search does not know. -/
def isOverlooked : String → Bool
  | "generator_function" | "method_definition" | "abstract_class_declaration" => true
  | _ => false

/-- The callables and classes: a return belongs to the innermost one around it. -/
def isScope (kind : String) : Bool := ownsReturns kind || isOverlooked kind

theorem isScope_eq_false_iff {kind : String} :
    isScope kind = false ↔ ownsReturns kind = false ∧ isOverlooked kind = false :=
  Bool.or_eq_false_iff

theorem unscoped_of_isOverlooked {kind : String} (h : isOverlooked kind = true) :
    ownsReturns kind = false ∧ kind ≠ "return_statement" := by
  unfold isOverlooked at h
  split at h
  iterate 3 exact ⟨rfl, by decide⟩
  cases h

theorem Node.Reaches.mono {narrow : String → Bool}
    (hscopes : ∀ kind, scopes kind = false → narrow kind = false) (h : n.Reaches scopes m) :
    n.Reaches narrow m := by
  induction h with
  | child mem rule => exact .child mem rule
  | deeper mem rule unscoped statement _ ih =>
    exact .deeper mem rule (hscopes _ unscoped) statement ih

theorem Node.Reaches.trans {k : Node} (h : n.Reaches scopes m) (hopen : scopes m.kind = false)
    (hm : m.kind ≠ "return_statement") (h' : m.Reaches scopes k) : n.Reaches scopes k := by
  induction h with
  | child mem rule => exact .deeper mem rule hopen hm h'
  | deeper mem rule unscoped statement _ ih =>
    exact .deeper mem rule unscoped statement (ih hopen hm h')

/-- A return that the search finds belongs to the node, or it stands in a callable or
class that the search does not know. -/
theorem hasReturn_ownsReturns_iff :
    n.HasReturn ownsReturns ↔ n.HasReturn isScope ∨
      ∃ s, n.Reaches isScope s ∧ isOverlooked s.kind = true ∧ s.HasReturn ownsReturns := by
  have hnarrow : ∀ kind, isScope kind = false → ownsReturns kind = false :=
    fun _ h => (isScope_eq_false_iff.mp h).1
  constructor
  · rintro ⟨m, hreach, hgives⟩
    induction hreach with
    | child mem rule => exact .inl ⟨_, .child mem rule, hgives⟩
    | @deeper n c m mem rule unscoped statement rest ih =>
      cases hc : isOverlooked c.kind with
      | true => exact .inr ⟨c, .child mem rule, hc, m, rest, hgives⟩
      | false =>
        have hopen : isScope c.kind = false := isScope_eq_false_iff.mpr ⟨unscoped, hc⟩
        rcases ih hgives with ⟨k, hk, hvalue⟩ | ⟨s, hs, hkind, hreturn⟩
        · exact .inl ⟨k, .deeper mem rule hopen statement hk, hvalue⟩
        · exact .inr ⟨s, .deeper mem rule hopen statement hs, hkind, hreturn⟩
  · rintro (⟨m, hreach, hgives⟩ | ⟨s, hs, hkind, m, hreach, hgives⟩)
    · exact ⟨m, hreach.mono hnarrow, hgives⟩
    · obtain ⟨hopen, hstatement⟩ := unscoped_of_isOverlooked hkind
      exact ⟨m, (hs.mono hnarrow).trans hopen hstatement hreach, hgives⟩

/-! ## Implied return types -/

/-- The type that a callable with these children returns, given what its body returns. -/
def promised (cs : List Node) (base : String) : String :=
  if hasKind "async" cs then "Promise<" ++ base ++ ">" else base

theorem impliedReturn_eq {body : Node} (hbody : field? "body" cs = some body)
    (hblock : body.kind = "statement_block") :
    (impliedReturn cs = promised cs "void" ∧ ¬body.HasReturn ownsReturns) ∨
      (impliedReturn cs = promised cs "any" ∧ body.HasReturn ownsReturns) := by
  have hreturns : anyReturnsValue body.children = true ↔ body.HasReturn ownsReturns := by
    rw [anyReturnsValue_iff, hasReturn_iff]
    exact exists_congr fun c => and_congr_right fun _ => and_congr_right fun hnamed =>
      returnsValue_iff c hnamed
  have himplied : impliedReturn cs =
      promised cs (if anyReturnsValue body.children then "any" else "void") := by
    simp only [impliedReturn, hbody, hblock, promised, beq_self_eq_true, Bool.true_and]
    cases anyReturnsValue body.children <;> rfl
  rw [← hreturns, himplied]
  cases anyReturnsValue body.children with
  | false => exact .inl ⟨rfl, Bool.false_ne_true⟩
  | true => exact .inr ⟨rfl, rfl⟩

/-- The type behind the colon or the arrow of a callable. -/
structure EndsWith (src : List Char) (cs : List Node) (type : String) : Prop where
  tail : ∀ {tail}, callableTail src cs = .ok tail → ∃ front, tail = front ++ ": " ++ type
  function : ∀ {parameters function}, functionTypeOf src cs parameters = .ok function →
    ∃ front, function = front ++ " => " ++ type

theorem endsWith_returnType {type : String} (htype : returnType src cs = .ok type) :
    EndsWith src cs type where
  tail h := by
    obtain ⟨types, _, h⟩ := bind_eq_ok_iff.mp h
    obtain ⟨list, _, h⟩ := bind_eq_ok_iff.mp h
    rw [htype] at h
    exact ⟨types ++ list, (Except.ok.inj h).symm⟩
  function h := by
    obtain ⟨types, _, h⟩ := bind_eq_ok_iff.mp h
    split at h
    all_goals
      obtain ⟨list, _, h⟩ := bind_eq_ok_iff.mp h
      rw [htype] at h
      exact ⟨types ++ list, (Except.ok.inj h).symm⟩

/-- Without an annotation a callable whose body is a block shows that it returns nothing
or something unknown. It shows nothing exactly when no return with a value belongs to its
body, and none stands in a generator expression, a method of an object literal or an
abstract class that belongs to the body. -/
theorem void_unless_returns {body : Node} (hnote : field? "return_type" cs = none)
    (hbody : field? "body" cs = some body) (hblock : body.kind = "statement_block") :
    ∃ base, returnType src cs = .ok (promised cs base) ∧ EndsWith src cs (promised cs base) ∧
      (base = "void" ∨ base = "any") ∧
      (base = "void" ↔ ¬body.HasReturn isScope ∧
        ∀ s, body.Reaches isScope s → isOverlooked s.kind = true → ¬s.HasReturn ownsReturns) := by
  have hshown : returnType src cs = .ok (impliedReturn cs) := by rw [returnType, hnote]
  have hnone : ¬body.HasReturn ownsReturns ↔ ¬body.HasReturn isScope ∧
      ∀ s, body.Reaches isScope s → isOverlooked s.kind = true → ¬s.HasReturn ownsReturns := by
    rw [hasReturn_ownsReturns_iff, not_or]
    simp only [not_exists, not_and]
  rw [← hnone]
  rcases impliedReturn_eq hbody hblock with ⟨himplied, hreturn⟩ | ⟨himplied, hreturn⟩
  all_goals
    rw [himplied] at hshown
    refine ⟨_, hshown, endsWith_returnType hshown, ?_, ?_⟩
  · exact .inl rfl
  · exact iff_of_true rfl hreturn
  · exact .inr rfl
  · exact iff_of_false (by decide) (not_not_intro hreturn)

/-- A name of one letter, an empty parameter list and `{ return 1; }`. -/
def returnsOne (start : Nat) : List Node :=
  [ruleAt "identifier" start (start + 1) ["name"] [],
    ruleAt "formal_parameters" (start + 1) (start + 3) ["parameters"] [],
    ruleAt "statement_block" (start + 4) (start + 17) ["body"]
      [ruleAt "return_statement" (start + 6) (start + 15) []
        [ruleAt "number" (start + 13) (start + 14) [] []]]]

/-- The body of `function f()` around one statement. -/
def bodyAround (statement : Node) : Node :=
  ruleAt "statement_block" 13 (statement.span.stop + 2) ["body"] [statement]

def functionAround (statement : Node) : List Node :=
  [ruleAt "identifier" 9 10 ["name"] [], ruleAt "formal_parameters" 10 12 ["parameters"] [],
    bodyAround statement]

/-- The return of a declared function is its own. -/
theorem void_unless_returns_nested :
    let src := "function f() { function g() { return 1; } }".toList
    let statement := ruleAt "function_declaration" 15 41 [] (returnsOne 24)
    let cs := functionAround statement
    field? "return_type" cs = none ∧ field? "body" cs = some (bodyAround statement) ∧
      (bodyAround statement).kind = "statement_block" ∧ returnType src cs = .ok "void" ∧
      ¬(bodyAround statement).HasReturn isScope := by
  intro src statement cs
  obtain ⟨base, hbase, -, hword, hvoid⟩ :=
    @void_unless_returns src cs (bodyAround statement) rfl rfl rfl
  have hshown : returnType src cs = .ok "void" := by rfl
  have hpromised : promised cs base = "void" := Except.ok.inj (hbase.symm.trans hshown)
  obtain rfl | rfl := hword
  · exact ⟨rfl, rfl, rfl, hshown, (hvoid.mp rfl).1⟩
  · exact absurd hpromised (by decide)

theorem not_returns_of_scope (h : scopes n.kind = true) (hk : n.kind ≠ "return_statement") :
    ¬n.Returns scopes := by
  rintro (hgives | ⟨hopen, _⟩)
  · exact hk hgives.kind
  · rw [h] at hopen
    cases hopen

theorem not_returns_of_children (hk : n.kind ≠ "return_statement")
    (h : ∀ c ∈ n.children, ¬c.Returns scopes) : ¬n.Returns scopes := by
  rintro (hgives | ⟨_, _, hreturn⟩)
  · exact hk hgives.kind
  · obtain ⟨c, hc, _, hreturns⟩ := hasReturn_iff.mp hreturn
    exact h c hc hreturns

/-- The return of a method of an object is taken for the return of the function. -/
theorem void_unless_returns_method :
    let src := "function f() { const o = { m() { return 1; } }; }".toList
    let method := ruleAt "method_definition" 27 44 [] (returnsOne 27)
    let object := ruleAt "object" 25 46 ["value"] [method]
    let statement := ruleAt "lexical_declaration" 15 47 []
      [ruleAt "variable_declarator" 21 46 [] [ruleAt "identifier" 21 22 ["name"] [], object]]
    returnType src (functionAround statement) = .ok "any" ∧
      ¬(bodyAround statement).HasReturn isScope := by
  intro src method object statement
  refine ⟨by rfl, fun h => ?_⟩
  have hmethod : ¬method.Returns isScope := not_returns_of_scope (by decide) (by decide)
  have hobject : ¬object.Returns isScope :=
    not_returns_of_children (by decide) (List.forall_mem_singleton.mpr hmethod)
  have hname : ¬(ruleAt "identifier" 21 22 ["name"] []).Returns isScope :=
    not_returns_of_children (by decide) nofun
  have hstatement : ¬statement.Returns isScope :=
    not_returns_of_children (by decide) (List.forall_mem_singleton.mpr
      (not_returns_of_children (by decide)
        (List.forall_mem_cons.mpr ⟨hname, List.forall_mem_singleton.mpr hobject⟩)))
  obtain ⟨c, hc, _, hreturns⟩ := hasReturn_iff.mp h
  obtain rfl : c = statement := List.mem_singleton.mp hc
  exact hstatement hreturns

end HoverTips.Tree
