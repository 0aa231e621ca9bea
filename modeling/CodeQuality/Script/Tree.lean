import CodeQuality.Script.Function
import CodeQuality.Survey.Basic

namespace CodeQuality
namespace Script

/-!
Syntax trees of scripts, as an external grammar gives them.

A node has a type, the places between which it stands, its children and the nodes
that its named fields point to.  The tree is gone through with a list of nodes to
visit, of which the last is taken, so siblings are visited from right to left.
-/

open Text

/-- A syntax tree of a script.  Fields may point to nodes that are no children. -/
inductive Node where
  | mk (type : String) (start stop : Int) (children : List Node) (fields : List (String × Node))

namespace Node

instance : Inhabited Node := ⟨.mk "" 0 0 [] []⟩

/-- The type of the node. -/
def type : Node → String
  | .mk type _ _ _ _ => type

/-- Where the node starts. -/
def start : Node → Int
  | .mk _ start _ _ _ => start

/-- Where the node ends. -/
def stop : Node → Int
  | .mk _ _ stop _ _ => stop

/-- The children of the node. -/
def children : Node → List Node
  | .mk _ _ _ children _ => children

/-- The node that a field points to. -/
def field? (node : Node) (name : String) : Option Node :=
  match node with
  | .mk _ _ _ _ fields => (fields.find? fun pair => pair.1 == name).map (·.2)

/-- The text of the node. -/
def text (source : List Char) (node : Node) : List Char := slice source node.start node.stop

/-- The line on which the node starts. -/
def line (source : List Char) (node : Node) : Nat := lineNumberAfter (upTo source node.start)

mutual

/-- The number of nodes of a tree. -/
def size : Node → Nat
  | .mk _ _ _ children _ => sizes children + 1

/-- The number of nodes of several trees. -/
def sizes : List Node → Nat
  | [] => 0
  | node :: rest => node.size + sizes rest

end

/-- The nodes in the order of visits.  The nodes to visit are given from the last to the first;
every visit takes one node of the trees away, so their number bounds the visits. -/
def visits : (bound : Nat) → (pending : List Node) → List Node
  | 0, _ => []
  | _ + 1, [] => []
  | bound + 1, node :: pending => node :: visits bound (node.children.reverse ++ pending)

/-- The nodes of a tree in the order of visits. -/
def visited (node : Node) : List Node := visits node.size [node]

/-- How much of a call is shown. -/
def callWidth : Nat := 200

/-- The suspicion that a node raises, if it is a call. -/
def suspicion? (source : List Char) (node : Node) : Option Survey.Suspicion :=
  if node.type = "call_expression" ∨ node.type = "call" then
    let shown := (trim (node.text source)).take callWidth
    let callee := ((node.field? "function").map (text source)).getD []
    let found := fun (kind : String) =>
      some (⟨kind, node.line source, String.ofList shown⟩ : Survey.Suspicion)
    if holdsWord "eval" callee then found "eval"
    else if holdsWord "document.write" shown || holdsWord ".innerHTML" shown then found "dom-xss"
    else if holdsWord "Function" callee && holdsWord "new" shown then found "new_function"
    else none
  else none

/-- The types of nodes that are functions. -/
def functionTypes : List String :=
  ["function_declaration", "method_definition", "arrow_function", "function"]

/-- How much of a function is compared. -/
def bodyWidth : Nat := 1000

/-- The node that names a function: one of its fields, or its first identifier. -/
def nameNode? (node : Node) : Option Node :=
  (node.field? "name") <|> (node.field? "identifier") <|>
    (node.children.find? fun child => child.type == "identifier")

/-- The function that a node is, if it is one. -/
def function? (source : List Char) (node : Node) : Option Function :=
  if functionTypes.contains node.type then
    let name := String.ofList (((node.nameNode?).map (text source)).getD [])
    some ⟨if name = "" then "<anonymous>" else name, node.line source,
      (node.text source).take bodyWidth⟩
  else none

end Node

end Script
end CodeQuality
