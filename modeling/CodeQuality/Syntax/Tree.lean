import CodeQuality.Syntax.Token

namespace CodeQuality
namespace Syntax

/-!
Syntax trees of Python source text.

A tree is a node with a kind, the places between which it stands and its children
in the order of the grammar's fields.  The kinds tell apart what the analyses ask
about; every other construct is a plain statement, a plain expression or a part of
one.  The nodes of a tree can be listed level by level, or each before its
children.
-/

/-- What a function definition says of itself: its name, the parameters that can be given by
position and by name, the decorators that are plain names, and whether it is asynchronous. -/
structure Signature where
  name : String
  parameters : List String
  decorators : List String
  isAsync : Bool

/-- The kinds of nodes. -/
inductive Kind where
  | module
  | function (signature : Signature)
  | classDefinition (name : String)
  | imports (source : Option String) (names : List String)
  | assertion
  | branch
  | loop (hasElse : Bool)
  | attempt (handlers : Nat) (hasElse : Bool)
  | statement
  | name (id : String)
  | attribute (member : String)
  | subscript
  | starred
  | tuple
  | list
  | call (callee : String)
  | boolean (operands : Nat)
  | conditional
  | clause (conditions : Nat)
  | expression
  | part

/-- Whether a node of this kind is a statement. -/
def Kind.isStatement : Kind → Bool
  | .function _ => true
  | .classDefinition _ => true
  | .imports _ _ => true
  | .assertion => true
  | .branch => true
  | .loop _ => true
  | .attempt _ _ => true
  | .statement => true
  | _ => false

/-- A syntax tree. -/
inductive Node where
  | mk (kind : Kind) (start stop : Position) (children : List Node)

namespace Node

/-- What the node is. -/
def kind : Node → Kind
  | .mk kind _ _ _ => kind

/-- Where the node starts. -/
def start : Node → Position
  | .mk _ start _ _ => start

/-- Where the node ends. -/
def stop : Node → Position
  | .mk _ _ stop _ => stop

/-- The children of the node, in the order of the grammar's fields. -/
def children : Node → List Node
  | .mk _ _ _ children => children

mutual

/-- The number of levels below a node. -/
def height : Node → Nat
  | .mk _ _ _ children => heights children

/-- The number of levels that a list of trees adds below their parent. -/
def heights : List Node → Nat
  | [] => 0
  | node :: rest => max (node.height + 1) (heights rest)

end

/-- The nodes that stand so many levels below a node, from left to right. -/
def level : (depth : Nat) → Node → List Node
  | 0, node => [node]
  | depth + 1, node => node.children.flatMap (level depth)

/-- All nodes of a tree, level by level and each level from left to right. -/
def breadthFirst (node : Node) : List Node :=
  (List.range (node.height + 1)).flatMap fun depth => node.level depth

mutual

/-- All nodes of a tree, each before its children. -/
def depthFirst : Node → List Node
  | .mk kind start stop children => .mk kind start stop children :: depthFirstAll children

/-- All nodes of a list of trees, each before its children. -/
def depthFirstAll : List Node → List Node
  | [] => []
  | node :: rest => node.depthFirst ++ depthFirstAll rest

end

end Node

end Syntax
end CodeQuality
