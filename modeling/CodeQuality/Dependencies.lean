import CodeQuality.Symbols.CallGraph
import CodeQuality.Symbols.Reference

namespace CodeQuality

/-!
Dependencies between modules.

Modules depend on each other through the references in their functions.  A module is
the hotter the more references it makes and receives, and the hottest ones are the
hotspots of a repository.
-/

open Symbols

/-- The graph of dependencies.  Each node has its heat. -/
structure Dependencies where
  nodes : List (String × Nat)
  edges : List Edge

namespace Dependencies

/-- The ends of references between modules that have a name. -/
def namedEnds (references : List Reference) : List (String × String) :=
  (references.map fun reference => (reference.caller, reference.calleeModule)).filter
    fun ends => ends.1 ≠ "" && ends.2 ≠ ""

/-- The references that a node makes and receives. -/
def heat (edges : List Edge) (node : String) : Nat :=
  (edges.map fun edge =>
    (if edge.source = node then edge.count else 0) +
      (if edge.target = node then edge.count else 0)).foldr (· + ·) 0

/-- The order in which the nodes of a graph come: any arrangement of their names. -/
structure Order where
  arrange : List String → List String
  perm : ∀ names, (arrange names).Perm names

/-- The nodes in order of name. -/
def Order.byName : Order := ⟨id, fun _ => .refl _⟩

/-- The dependencies that references make. -/
def ofReferences (order : Order) (references : List Reference) : Dependencies :=
  let edges := countEdges (namedEnds references)
  ⟨(order.arrange (endsOf edges)).map fun node => (node, heat edges node), edges⟩

/-- The dependencies of the repository at a path. -/
def ofRepository (reader : Syntax.Reader) (order : Order) (files : Files) (path : String) :
    Outcome Dependencies := do
  let table ← pythonTable reader files path
  pure (ofReferences order (← references table.toJson))

/-- How many hotspots there are at most. -/
def hotspotCount : Nat := 5

/-- Put a node among others, before those that are no hotter. -/
def insertByHeat (node : String × Nat) : List (String × Nat) → List (String × Nat)
  | [] => [node]
  | own :: rest => if node.2 < own.2 then own :: insertByHeat node rest else node :: own :: rest

/-- The nodes by heat; equally hot ones keep their order. -/
def byHeat (nodes : List (String × Nat)) : List (String × Nat) := nodes.foldr insertByHeat []

/-- The hottest nodes. -/
def hotspots (graph : Dependencies) : List (String × Nat) :=
  (byHeat graph.nodes).take hotspotCount

/-- The note on the library that could draw the graph. -/
def note (hasLibrary : Bool) : String :=
  if hasLibrary then "Graph built with NetworkX" else "NetworkX not installed"

/-- The record of a graph of dependencies. -/
def toJson (graph : Dependencies) (hasLibrary : Bool) : Json :=
  .obj [("nodes", .arr (graph.nodes.map fun (name, heat) =>
      .obj [("id", .str name), ("label", .str name), ("hotness", .nat heat)])),
    ("edges", .arr (graph.edges.map fun edge =>
      .obj [("source", .str edge.source), ("target", .str edge.target),
        ("weight", .nat edge.count)])),
    ("hotspots", .arr (graph.hotspots.map fun (name, heat) =>
      .obj [("id", .str name), ("score", .nat heat)])),
    ("note", .str (note hasLibrary))]

end Dependencies
end CodeQuality
