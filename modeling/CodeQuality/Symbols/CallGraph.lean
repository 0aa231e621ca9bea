import CodeQuality.Json.Access
import CodeQuality.Json.Display

namespace CodeQuality
namespace Symbols

/-!
Call graphs: who refers to whom, and how often.
-/

/-- An edge between two ends, with a count. -/
structure Edge where
  source : String
  target : String
  count : Nat
deriving DecidableEq

/-- Count one more reference from one end to another; edges come in order of first reference. -/
def countEdge (source target : String) : List Edge → List Edge
  | [] => [⟨source, target, 1⟩]
  | edge :: rest =>
      if edge.source = source ∧ edge.target = target then
        { edge with count := edge.count + 1 } :: rest
      else edge :: countEdge source target rest

/-- The edges of references, which are given by their ends. -/
def countEdges (ends : List (String × String)) : List Edge :=
  ends.foldl (fun edges (source, target) => countEdge source target edges) []

/-- Put a text into a list in order, unless it is there. -/
def insertSorted (text : String) : List String → List String
  | [] => [text]
  | own :: rest =>
      if text = own then own :: rest
      else if text < own then text :: own :: rest
      else own :: insertSorted text rest

/-- The ends of edges in order, each of them once. -/
def endsOf (edges : List Edge) : List String :=
  edges.foldl (fun ends edge => insertSorted edge.target (insertSorted edge.source ends)) []

/-- A call graph. -/
structure CallGraph where
  nodes : List String
  edges : List Edge

/-- The record of a call graph. -/
def CallGraph.toJson (graph : CallGraph) : Json :=
  .obj [("nodes", .texts graph.nodes),
    ("edges", .arr (graph.edges.map fun edge =>
      .obj [("from", .str edge.source), ("to", .str edge.target), ("count", .nat edge.count)]))]

/-- The ends of the record of a reference: what is called, seen from the caller and by its
module. -/
def referenceEnds (reference : Json) : Outcome (String × String) := do
  let caller ← reference.element "caller_file"
  let name ← reference.element "callee_name"
  let calleeModule ← reference.element "callee_module"
  pure (caller.display ++ "." ++ name.display, calleeModule.display ++ "." ++ name.display)

/-- The call graph of the record of references. -/
def CallGraph.ofReferences (record : Json) : Outcome CallGraph := do
  let references ← (← record.member "call_graph" (.arr [])).elements
  let ends ← references.mapM referenceEnds
  let edges := countEdges ends
  pure ⟨endsOf edges, edges⟩

end Symbols
end CodeQuality
