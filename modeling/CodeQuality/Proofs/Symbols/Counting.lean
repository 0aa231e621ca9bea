import CodeQuality.Symbols.CallGraph
import Mathlib.Algebra.BigOperators.Group.List.Basic
import Mathlib.Algebra.GroupWithZero.Nat
import Mathlib.Data.List.Induction
import Mathlib.Data.List.Nodup
import Mathlib.Data.String.Basic

namespace CodeQuality

open List

namespace Symbols

/-!
References counted by their ends.

One more reference is counted on the edge between its ends, which is made when it is
missing.  So there is one edge for each pair of ends, and no reference is lost: whatever
pairs are asked for, the counts of the edges between them add up to the number of
references between them.
-/

/-- The two ends of an edge. -/
def Edge.ends (edge : Edge) : String × String := (edge.source, edge.target)

/-- The references that are counted on the edges between some ends. -/
def countBetween (isWanted : String × String → Bool) (edges : List Edge) : Nat :=
  ((edges.filter fun edge => isWanted edge.ends).map (·.count)).sum

/-! ## Edges -/

theorem countBetween_cons (isWanted : String × String → Bool) (edge : Edge) (edges : List Edge) :
    countBetween isWanted (edge :: edges) =
      (if isWanted edge.ends then edge.count else 0) + countBetween isWanted edges := by
  rw [countBetween, filter_cons]
  split
  · rw [map_cons, sum_cons, countBetween]
  · rw [Nat.zero_add, countBetween]

theorem countBetween_all (edges : List Edge) :
    countBetween (fun _ => true) edges = (edges.map (·.count)).sum := by
  rw [countBetween, filter_true]

variable {edges : List Edge}

theorem countBetween_eq_zero {isWanted : String × String → Bool}
    (none : ∀ edge ∈ edges, isWanted edge.ends = false) : countBetween isWanted edges = 0 := by
  rw [countBetween, filter_eq_nil_iff.mpr fun edge member => by simp [none edge member]]
  rfl

/-- One more reference is counted once. -/
theorem countBetween_countEdge (isWanted : String × String → Bool) (source target : String)
    (edges : List Edge) :
    countBetween isWanted (countEdge source target edges) =
      countBetween isWanted edges + if isWanted (source, target) then 1 else 0 := by
  induction edges with
  | nil =>
      rw [countEdge, countBetween_cons, Nat.add_comm]
      rfl
  | cons edge rest ih =>
      rw [countEdge]
      by_cases same : edge.source = source ∧ edge.target = target
      · have ends : (source, target) = edge.ends := by rw [Edge.ends, same.1, same.2]
        rw [if_pos same, countBetween_cons, countBetween_cons, ends]
        show (if isWanted edge.ends then edge.count + 1 else 0) + countBetween isWanted rest = _
        split <;> omega
      · rw [if_neg same, countBetween_cons, countBetween_cons, ih, Nat.add_assoc]

/-- The ends that are counted on stay in their places, and new ones come last. -/
theorem map_ends_countEdge (source target : String) (edges : List Edge) :
    (countEdge source target edges).map Edge.ends =
      if (source, target) ∈ edges.map Edge.ends then edges.map Edge.ends
      else edges.map Edge.ends ++ [(source, target)] := by
  induction edges with
  | nil => rfl
  | cons edge rest ih =>
      rw [countEdge]
      by_cases same : edge.source = source ∧ edge.target = target
      · have ends : (source, target) = edge.ends := by rw [Edge.ends, same.1, same.2]
        rw [if_pos same, ends, map_cons, map_cons, if_pos mem_cons_self]
        rfl
      · have different : (source, target) ≠ edge.ends := by
          intro equal
          exact same ⟨(congrArg Prod.fst equal).symm, (congrArg Prod.snd equal).symm⟩
        rw [if_neg same, map_cons, map_cons, ih]
        by_cases inside : (source, target) ∈ rest.map Edge.ends
        · rw [if_pos inside, if_pos (mem_cons_of_mem _ inside)]
        · rw [if_neg inside, if_neg (by simp [different, inside]), cons_append]

theorem count_pos_of_mem_countEdge {source target : String}
    (positive : ∀ edge ∈ edges, 0 < edge.count) :
    ∀ edge ∈ countEdge source target edges, 0 < edge.count := by
  induction edges with
  | nil => simp [countEdge]
  | cons own rest ih =>
      rw [forall_mem_cons] at positive
      rw [countEdge]
      split
      · exact forall_mem_cons.mpr ⟨Nat.succ_pos _, positive.2⟩
      · exact forall_mem_cons.mpr ⟨positive.1, ih positive.2⟩

/-! ## All references -/

/-- What one more reference keeps holds when all of them are counted. -/
theorem countEdges_induction {holds : List (String × String) → List Edge → Prop}
    (start : holds [] []) (step : ∀ done edges source target, holds done edges →
      holds (done ++ [(source, target)]) (countEdge source target edges))
    (ends : List (String × String)) : holds ends (countEdges ends) := by
  induction ends using reverseRecOn with
  | nil => exact start
  | append_singleton done added ih =>
      rw [countEdges, foldl_append]
      exact step done _ added.1 added.2 ih

/-- No reference is lost, and none is counted twice. -/
theorem countBetween_countEdges (isWanted : String × String → Bool)
    (ends : List (String × String)) :
    countBetween isWanted (countEdges ends) = ends.countP isWanted := by
  induction ends using countEdges_induction with
  | start => rfl
  | step done edges source target counted =>
      rw [countBetween_countEdge, counted, countP_append, countP_singleton]

/-- There is one edge for each pair of ends. -/
theorem nodup_ends_countEdges (ends : List (String × String)) :
    ((countEdges ends).map Edge.ends).Nodup := by
  induction ends using countEdges_induction with
  | start => exact nodup_nil
  | step done edges source target unique =>
      rw [map_ends_countEdge]
      split
      · exact unique
      · next outside =>
          rw [← concat_eq_append]
          exact unique.concat outside

theorem count_pos_of_mem_countEdges (ends : List (String × String)) :
    ∀ edge ∈ countEdges ends, 0 < edge.count := by
  induction ends using countEdges_induction with
  | start => simp
  | step done edges source target positive => exact count_pos_of_mem_countEdge positive

/-! ## The ends of edges -/

theorem mem_insertSorted {text node : String} {nodes : List String} :
    node ∈ insertSorted text nodes ↔ node = text ∨ node ∈ nodes := by
  induction nodes with
  | nil => simp [insertSorted]
  | cons own rest ih =>
      rw [insertSorted]
      split
      · next same => simp [same]
      · split
        · exact mem_cons
        · rw [mem_cons, ih, mem_cons]
          exact or_left_comm

/-- Putting a text where it belongs keeps the order. -/
theorem sorted_insertSorted (text : String) {nodes : List String}
    (sorted : nodes.Pairwise (· < ·)) : (insertSorted text nodes).Pairwise (· < ·) := by
  induction nodes with
  | nil => exact pairwise_singleton _ _
  | cons own rest ih =>
      rw [pairwise_cons] at sorted
      rw [insertSorted]
      by_cases same : text = own
      · rw [if_pos same]
        exact pairwise_cons.mpr sorted
      · rw [if_neg same]
        by_cases before : text < own
        · rw [if_pos before]
          refine pairwise_cons.mpr ⟨?_, pairwise_cons.mpr sorted⟩
          intro node member
          rcases mem_cons.mp member with equal | later
          · exact equal ▸ before
          · exact before.trans (sorted.1 node later)
        · rw [if_neg before]
          refine pairwise_cons.mpr ⟨?_, ih sorted.2⟩
          intro node member
          rcases mem_insertSorted.mp member with equal | later
          · exact equal ▸ lt_of_le_of_ne (not_lt.mp before) (Ne.symm same)
          · exact sorted.1 node later

theorem endsOf_concat (edges : List Edge) (edge : Edge) :
    endsOf (edges ++ [edge]) =
      insertSorted edge.target (insertSorted edge.source (endsOf edges)) := by
  rw [endsOf, foldl_append]
  rfl

theorem sorted_endsOf (edges : List Edge) : (endsOf edges).Pairwise (· < ·) := by
  induction edges using reverseRecOn with
  | nil => exact Pairwise.nil
  | append_singleton edges edge ih =>
      rw [endsOf_concat]
      exact sorted_insertSorted _ (sorted_insertSorted _ ih)

theorem nodup_endsOf (edges : List Edge) : (endsOf edges).Nodup :=
  (sorted_endsOf edges).imp ne_of_lt

/-- The ends of edges are their sources and their targets. -/
theorem mem_endsOf {node : String} :
    node ∈ endsOf edges ↔ ∃ edge ∈ edges, node = edge.source ∨ node = edge.target := by
  induction edges using reverseRecOn with
  | nil => simp [endsOf]
  | append_singleton edges edge ih =>
      rw [endsOf_concat, mem_insertSorted, mem_insertSorted, ih]
      simp only [mem_append, mem_singleton, or_and_right, exists_or, exists_eq_left]
      constructor
      · rintro (target | source | earlier)
        · exact Or.inr (Or.inr target)
        · exact Or.inr (Or.inl source)
        · exact Or.inl earlier
      · rintro (earlier | source | target)
        · exact Or.inr (Or.inr earlier)
        · exact Or.inr (Or.inl source)
        · exact Or.inl target

end Symbols
end CodeQuality
