import CodeQuality.Syntax.Tree
import Mathlib.Data.List.Basic
import Mathlib.Data.List.Perm.Basic

namespace CodeQuality

open List

namespace Syntax
namespace Node

/-!
The two ways to list the nodes of a tree.

Listing a tree level by level is what a walk with a queue does: it takes the node in
front and puts the children of that node behind all that wait already.  A walk visits
every node of the waiting trees once, so up to order it lists the same nodes as the
list in which each node stands before its children.
-/

/-- A walk with a queue: the waiting nodes, and the nodes in the order in which they are visited. -/
inductive Walks : List Node → List Node → Prop
  | done : Walks [] []
  | visit {node : Node} {waiting visited : List Node}
      (onward : Walks (waiting ++ node.children) visited) :
      Walks (node :: waiting) (node :: visited)

/-! ## Level by level -/

theorem heights_append (nodes others : List Node) :
    heights (nodes ++ others) = max (heights nodes) (heights others) := by
  induction nodes with
  | nil => exact (Nat.zero_max _).symm
  | cons node rest ih => rw [cons_append, heights, heights, ih, Nat.max_assoc]

theorem heights_children (node : Node) : heights node.children = node.height := by
  cases node
  rfl

/-- One level further down, one level less is left. -/
theorem heights_flatMap_children {levels : Nat} (nodes : List Node)
    (bounded : heights nodes ≤ levels + 1) : heights (nodes.flatMap children) ≤ levels := by
  induction nodes with
  | nil => exact Nat.zero_le levels
  | cons node rest ih =>
      rw [heights, Nat.max_le] at bounded
      rw [flatMap_cons, heights_append, heights_children, Nat.max_le]
      exact ⟨Nat.le_of_succ_le_succ bounded.1, ih bounded.2⟩

/-- The first levels of several trees. -/
def levelsOf (levels : Nat) (nodes : List Node) : List Node :=
  (range levels).flatMap fun depth => nodes.flatMap (level depth)

theorem levelsOf_succ (levels : Nat) (nodes : List Node) :
    levelsOf (levels + 1) nodes = nodes ++ levelsOf levels (nodes.flatMap children) := by
  have front : nodes.flatMap (level 0) = nodes := flatMap_singleton' nodes
  have deeper : ∀ depth, nodes.flatMap (level (depth + 1)) =
      (nodes.flatMap children).flatMap (level depth) := fun depth => flatMap_assoc.symm
  rw [levelsOf, range_succ_eq_map, flatMap_cons, flatMap_map, front]
  simp only [Nat.succ_eq_add_one, deeper]
  rfl

theorem breadthFirst_eq_levelsOf (tree : Node) :
    tree.breadthFirst = levelsOf (tree.height + 1) [tree] := by
  simp only [breadthFirst, levelsOf, flatMap_singleton]

/-- A walk visits all waiting nodes before any of their children. -/
theorem Walks.level {visited : List Node} (nodes waiting : List Node)
    (onward : Walks (waiting ++ nodes.flatMap children) visited) :
    Walks (nodes ++ waiting) (nodes ++ visited) := by
  induction nodes generalizing waiting with
  | nil =>
      rw [flatMap_nil, append_nil] at onward
      exact onward
  | cons node rest ih =>
      rw [flatMap_cons, ← append_assoc] at onward
      have later := ih (waiting ++ node.children) onward
      rw [← append_assoc] at later
      exact .visit later

theorem walks_levelsOf (levels : Nat) (nodes : List Node) (bounded : heights nodes ≤ levels) :
    Walks nodes (levelsOf levels nodes) := by
  induction levels generalizing nodes with
  | zero =>
      cases nodes with
      | nil => exact .done
      | cons node rest =>
          rw [heights] at bounded
          omega
  | succ levels ih =>
      rw [levelsOf_succ]
      have onward := Walks.level nodes [] (ih _ (heights_flatMap_children nodes bounded))
      rw [append_nil] at onward
      exact onward

/-- Listing a tree level by level is a walk with a queue. -/
theorem walks_breadthFirst (tree : Node) : Walks [tree] tree.breadthFirst := by
  rw [breadthFirst_eq_levelsOf]
  exact walks_levelsOf _ _ (Nat.max_le.mpr ⟨Nat.le_refl _, Nat.zero_le _⟩)

/-! ## What a walk visits -/

theorem depthFirst_eq (node : Node) : node.depthFirst = node :: depthFirstAll node.children := by
  cases node
  rw [depthFirst]
  rfl

theorem depthFirstAll_append (nodes others : List Node) :
    depthFirstAll (nodes ++ others) = depthFirstAll nodes ++ depthFirstAll others := by
  induction nodes with
  | nil => rfl
  | cons node rest ih =>
      rw [cons_append, depthFirstAll, depthFirstAll, ih, append_assoc]

/-- A walk visits the nodes of the waiting trees, each once. -/
theorem Walks.perm_depthFirstAll {waiting visited : List Node} (walks : Walks waiting visited) :
    visited.Perm (depthFirstAll waiting) := by
  induction walks with
  | done => exact .refl _
  | @visit node waiting visited onward ih =>
      rw [depthFirstAll, depthFirst_eq, cons_append]
      rw [depthFirstAll_append] at ih
      exact (ih.trans perm_append_comm).cons node

theorem breadthFirst_perm_depthFirst (tree : Node) : tree.breadthFirst.Perm tree.depthFirst := by
  have visited := (walks_breadthFirst tree).perm_depthFirstAll
  rw [depthFirstAll, depthFirstAll, append_nil] at visited
  exact visited

/-- What holds of a tree and passes on to children holds of all that is visited. -/
theorem Walks.forall_visited {holds : Node → Prop} {waiting visited : List Node}
    (walks : Walks waiting visited)
    (inherited : ∀ node, holds node → ∀ child ∈ node.children, holds child)
    (waitingHold : ∀ node ∈ waiting, holds node) : ∀ node ∈ visited, holds node := by
  induction walks with
  | done => exact waitingHold
  | @visit node waiting visited onward ih =>
      rw [forall_mem_cons] at waitingHold ⊢
      refine ⟨waitingHold.1, ih ?_⟩
      rw [forall_mem_append]
      exact ⟨waitingHold.2, inherited node waitingHold.1⟩

end Node
end Syntax
end CodeQuality
