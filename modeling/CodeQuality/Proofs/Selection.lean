import CodeQuality.Proofs.Ranking
import Mathlib.Data.List.Forall2
import Mathlib.Data.List.Nodup

namespace CodeQuality

open List

namespace Sorting

/-!
The first few of many.

To show the highest items is to sort all of them by falling scores and to cut the list.
What comes out can be said without sorting: it is in order, it is as long as it can be,
and nothing that is left out belongs before something that is shown.  Items with equal
scores keep the order in which they came.
-/

/-- Some items are the first ones in an order: as many as are asked for, if there are so many, and
none that is left out belongs before one of them. -/
structure IsTop {α : Type} (count : Nat) (precedes : α → α → Prop) (items chosen : List α) :
    Prop where
  length : chosen.length = min count items.length
  within : ∀ item ∈ chosen, item ∈ items
  distinct : chosen.Nodup
  ordered : chosen.Pairwise precedes
  complete : ∀ other ∈ items, other ∉ chosen → ∀ item ∈ chosen, precedes item other

theorem isTop_take {α : Type} {precedes : α → α → Prop} {items sorted : List α}
    (distinct : items.Nodup) (permuted : sorted.Perm items) (ordered : sorted.Pairwise precedes)
    (count : Nat) : IsTop count precedes items (sorted.take count) where
  length := by rw [length_take, permuted.length_eq]
  within := fun item member => permuted.mem_iff.mp (mem_of_mem_take member)
  distinct := (permuted.nodup_iff.mpr distinct).sublist (take_sublist _ _)
  ordered := ordered.sublist (take_sublist _ _)
  complete := by
    intro other member outside item chosen
    rw [← permuted.mem_iff, ← take_append_drop count sorted] at member
    rw [← take_append_drop count sorted, pairwise_append] at ordered
    exact ordered.2.2 item chosen other ((mem_append.mp member).resolve_left outside)

section

variable {α : Type} (score : α → Int)

/-- Items with equal scores keep any order in which they came. -/
theorem pairwise_ranked {came : α → α → Prop} {items : List α} (arrived : items.Pairwise came) :
    (ranked score items).Pairwise fun first second =>
      score second < score first ∨ (score first = score second ∧ came first second) := by
  induction items with
  | nil =>
      rw [ranked_nil]
      exact .nil
  | cons item items ih =>
      rw [pairwise_cons] at arrived
      rcases ranked_cons score item items with ⟨above, below, placed, rest, higher, notHigher⟩
      have sorted := ih arrived.2
      rw [rest, pairwise_append] at sorted
      rw [placed, pairwise_append, pairwise_cons]
      refine ⟨sorted.1, ⟨?_, sorted.2.1⟩, ?_⟩
      · intro other member
        have listed : other ∈ items := by
          rw [← (ranked_perm score items).mem_iff, rest]
          exact mem_append_right above member
        rcases Int.lt_or_eq_of_le (notHigher other member) with lower | equal
        · exact Or.inl lower
        · exact Or.inr ⟨equal.symm, arrived.1 other listed⟩
      · intro first early second late
        rcases mem_cons.mp late with rfl | later
        · exact Or.inl (higher first early)
        · exact sorted.2.2 first early second later

/-- The item at one position belongs before that at another: it scores more, or it scores the same
and stands before it. -/
def Precedes (items : List α) (first second : Nat) : Prop :=
  ∃ item other, items[first]? = some item ∧ items[second]? = some other ∧
    (score other < score item ∨ (score item = score other ∧ first < second))

theorem pairwise_zipIdx (items : List α) :
    items.zipIdx.Pairwise fun first second => first.2 < second.2 := by
  rw [← pairwise_map (f := Prod.snd) (R := (· < ·)), zipIdx_map_snd]
  exact pairwise_lt_range'

/-- Sorting by what is seen of items is sorting what is seen. -/
theorem map_ranked {β : Type} (view : β → α) (items : List β) :
    (ranked (fun item => score (view item)) items).map view = ranked score (items.map view) :=
  map_mergeSort fun _ _ _ _ => rfl

/-- The first few by falling scores stand at the first few positions. -/
theorem exists_isTop_ranked (items : List α) (count : Nat) :
    ∃ positions, IsTop count (Precedes score items) (range items.length) positions ∧
      Forall₂ (fun position item => items[position]? = some item) positions
        ((ranked score items).take count) := by
  let numbered := ranked (fun pair : α × Nat => score pair.1) items.zipIdx
  have listed : ∀ pair ∈ numbered, items[pair.2]? = some pair.1 := by
    intro pair member
    rw [(ranked_perm _ _).mem_iff] at member
    exact mem_zipIdx_iff_getElem?.mp member
  have permuted : (numbered.map Prod.snd).Perm (range items.length) := by
    have numbers := (ranked_perm (fun pair : α × Nat => score pair.1) items.zipIdx).map Prod.snd
    rw [zipIdx_map_snd, ← range_eq_range'] at numbers
    exact numbers
  have ordered : (numbered.map Prod.snd).Pairwise (Precedes score items) := by
    rw [pairwise_map]
    refine (pairwise_ranked _ (pairwise_zipIdx items)).imp_of_mem ?_
    intro first second early late before
    exact ⟨first.1, second.1, listed first early, listed second late, before⟩
  refine ⟨(numbered.map Prod.snd).take count,
    isTop_take nodup_range permuted ordered count, ?_⟩
  have shown : ranked score items = numbered.map Prod.fst := by
    rw [map_ranked score Prod.fst items.zipIdx, zipIdx_map_fst]
  rw [shown, ← map_take, ← map_take, forall₂_map_left_iff,
    forall₂_map_right_iff, forall₂_same]
  exact fun pair member => listed pair (mem_of_mem_take member)

end

end Sorting
end CodeQuality
