import HoverTips.Tree.Node

/-!
# Implied return types

A callable without a return annotation reads as `void` when its body is a block that returns no
value, and as `any` otherwise; an async one wraps that in a promise. Returns of functions and
classes inside the body are theirs.
-/

namespace HoverTips.Tree

/-- The nodes whose returns are not those of the body around them. -/
def ownsReturns : String → Bool
  | "function_declaration" | "generator_function_declaration" | "function_expression"
  | "arrow_function" | "class_declaration" | "class" => true
  | _ => false

mutual

/-- Whether a statement of a body, or one inside it, returns a value from that body. -/
def Node.returnsValue : Node → Bool
  | .mk l cs =>
    if l.kind == "return_statement" then (named cs).any (·.kind != "comment")
    else if ownsReturns l.kind then false
    else anyReturnsValue cs

def anyReturnsValue : List Node → Bool
  | [] => false
  | c :: cs => (c.isNamed && c.returnsValue) || anyReturnsValue cs

end

/-- The return type of a callable with these children that has no annotation. -/
def impliedReturn (children : List Node) : String :=
  let base := match field? "body" children with
    | some body =>
      if body.kind == "statement_block" && !anyReturnsValue body.children then "void" else "any"
    | none => "any"
  if hasKind "async" children then "Promise<" ++ base ++ ">" else base

end HoverTips.Tree
