import CodeQuality.Syntax.Tree

namespace CodeQuality
namespace Syntax

/-!
Cyclomatic complexity.

The complexity of a function is one more than the number of decisions in its body.
Definitions inside the body are measured on their own, and assertions count once
whatever they hold.
-/

/-- The decisions that a node of a kind makes by itself. -/
def Kind.decisions : Kind → Nat
  | .assertion => 1
  | .branch => 1
  | .conditional => 1
  | .loop hasElse => if hasElse then 2 else 1
  | .attempt handlers hasElse => handlers + if hasElse then 1 else 0
  | .boolean operands => operands - 1
  | .clause conditions => conditions + 1
  | _ => 0

/-- Whether the decisions below a node of a kind count. -/
def Kind.isEntered : Kind → Bool
  | .function _ => false
  | .classDefinition _ => false
  | .assertion => false
  | _ => true

namespace Node

mutual

/-- The decisions of a node and of everything below it that counts. -/
def decisions : Node → Nat
  | .mk kind _ _ children =>
      kind.decisions + if kind.isEntered then decisionsOfAll children else 0

/-- The decisions of several trees. -/
def decisionsOfAll : List Node → Nat
  | [] => 0
  | node :: rest => node.decisions + decisionsOfAll rest

end

/-- The statements in the body of a function. -/
def statements (node : Node) : List Node := node.children.filter (·.kind.isStatement)

/-- The cyclomatic complexity of a function. -/
def complexity (node : Node) : Nat := 1 + decisionsOfAll node.statements

end Node
end Syntax
end CodeQuality
