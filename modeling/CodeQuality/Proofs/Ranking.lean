import CodeQuality.Json.Order
import Mathlib.Data.List.Basic

namespace CodeQuality

open List

namespace Sorting

/-!
Items by falling scores.

Of equal items the one that stood first stays first, so the place of an item can be
counted before anything is sorted: it comes behind those before it that score at least
as much and those after it that score more.  Sorting by values of any kind may fail;
with whole numbers it does not, and it gives the same order.
-/

/-- The items with the highest score first; equal ones keep their order. -/
def ranked {α : Type} (score : α → Int) (items : List α) : List α :=
  items.mergeSort fun first second => score second ≤ score first

section

variable {α : Type} (score : α → Int)

theorem ranked_perm (items : List α) : (ranked score items).Perm items := mergeSort_perm _ _

theorem ranked_nil : ranked score [] = [] := mergeSort_nil

/-- One more item in front goes behind all that score more and before all others. -/
theorem ranked_cons (item : α) (items : List α) :
    ∃ above below, ranked score (item :: items) = above ++ item :: below ∧
      ranked score items = above ++ below ∧
      (∀ other ∈ above, score item < score other) ∧ ∀ other ∈ below, score other ≤ score item := by
  have transitive : ∀ first second third : α, decide (score second ≤ score first) = true →
      decide (score third ≤ score second) = true → decide (score third ≤ score first) = true := by
    simp only [decide_eq_true_eq]
    omega
  have total : ∀ first second : α,
      (decide (score second ≤ score first) || decide (score first ≤ score second)) = true := by
    simp only [Bool.or_eq_true, decide_eq_true_eq]
    omega
  rcases mergeSort_cons transitive total item items with ⟨above, below, placed, rest, higher⟩
  have sorted := pairwise_mergeSort transitive total (item :: items)
  rw [placed] at sorted
  refine ⟨above, below, placed, rest, ?_, ?_⟩
  · intro other member
    have unranked := higher other member
    rw [Bool.not_eq_true', decide_eq_false_iff_not] at unranked
    omega
  · intro other member
    exact of_decide_eq_true
      ((pairwise_cons.mp (pairwise_append.mp sorted).2.1).1 other member)

/-- Scores fall from the first item to the last. -/
theorem falling_ranked (items : List α) :
    (ranked score items).Pairwise fun first second => score second ≤ score first := by
  induction items with
  | nil =>
      rw [ranked_nil]
      exact Pairwise.nil
  | cons item items ih =>
      rcases ranked_cons score item items with ⟨above, below, placed, rest, higher, lower⟩
      rw [rest, pairwise_append] at ih
      rw [placed, pairwise_append]
      refine ⟨ih.1, pairwise_cons.mpr ⟨lower, ih.2.1⟩, ?_⟩
      intro first early second late
      rcases mem_cons.mp late with equal | later
      · exact equal ▸ Int.le_of_lt (higher first early)
      · exact ih.2.2 first early second later

/-- Where an item stands when its list is cut in two: in the second part or in the first. -/
theorem cut_around {upper lower above below : List α} {item : α}
    (cut : above ++ item :: below = upper ++ lower) :
    (∃ between, above = upper ++ between ∧ lower = between ++ item :: below) ∨
      ∃ between, upper = above ++ item :: between ∧ below = between ++ lower := by
  rcases append_eq_append_iff.mp cut with ⟨between, whole, tails⟩ | ⟨between, whole, tails⟩
  · cases between with
    | nil =>
        rw [append_nil] at whole
        exact Or.inl ⟨[], by rw [whole, append_nil], tails.symm⟩
    | cons head between =>
        cases tails
        exact Or.inr ⟨between, whole, rfl⟩
  · exact Or.inl ⟨between, whole, tails⟩

/-- The place of an item: behind those before it that score at least as much and behind those after
it that score more. -/
theorem ranked_append_cons (before : List α) (item : α) (after : List α) :
    ∃ above below, ranked score (before ++ item :: after) = above ++ item :: below ∧
      above.length = before.countP (fun other => score item ≤ score other) +
        after.countP (fun other => score item < score other) := by
  induction before with
  | nil =>
      rcases ranked_cons score item after with ⟨above, below, placed, rest, higher, lower⟩
      refine ⟨above, below, placed, ?_⟩
      have counted := (ranked_perm score after).countP_eq fun other => score item < score other
      have all : above.countP (fun other => decide (score item < score other)) = above.length :=
        countP_eq_length.mpr fun other member => decide_eq_true (higher other member)
      have none : below.countP (fun other => decide (score item < score other)) = 0 := by
        rw [countP_eq_zero]
        intro other member
        have := lower other member
        rw [decide_eq_true_eq]
        omega
      rw [rest, countP_append, all, none] at counted
      rw [countP_nil]
      omega
  | cons first before ih =>
      rcases ih with ⟨above, below, placed, count⟩
      rcases ranked_cons score first (before ++ item :: after) with
        ⟨upper, lower, inserted, rest, higher, notHigher⟩
      rw [placed] at rest
      rw [cons_append, countP_cons, inserted]
      -- the new item goes before the one that is watched, or behind it
      rcases cut_around rest with ⟨between, whole, tails⟩ | ⟨between, whole, tails⟩
      · have score_le : score item ≤ score first :=
          notHigher item (by rw [tails]; exact mem_append_right _ mem_cons_self)
        rw [decide_eq_true score_le, if_pos rfl]
        refine ⟨upper ++ first :: between, below, ?_, ?_⟩
        · rw [tails, append_assoc]
          rfl
        · rw [whole, length_append] at count
          rw [length_append, length_cons]
          omega
      · have score_lt : score first < score item :=
          higher item (by rw [whole]; exact mem_append_right _ mem_cons_self)
        rw [decide_eq_false (by omega), if_neg Bool.false_ne_true]
        refine ⟨above, between ++ first :: lower, ?_, by omega⟩
        rw [whole, append_assoc]
        rfl

/-- What is known by its label is among the first few exactly when fewer stand before it. -/
theorem label_mem_take_iff {β : Type} (label : α → β) {above below : List α} {item : α}
    (unique : ((above ++ item :: below).map label).Nodup) (count : Nat) :
    label item ∈ ((above ++ item :: below).take count).map label ↔ above.length < count := by
  constructor
  · intro member
    by_contra beyond
    rw [take_append_of_le_length (by omega)] at member
    rw [map_append, map_cons, nodup_append] at unique
    rcases mem_map.mp member with ⟨other, inside, same⟩
    exact unique.2.2 _ (mem_map_of_mem (mem_of_mem_take inside)) _ mem_cons_self same
  · intro within
    refine mem_map_of_mem ?_
    rw [take_append, mem_append]
    right
    rw [show count - above.length = (count - above.length - 1) + 1 by omega, take_succ_cons]
    exact mem_cons_self

end

/-! ## Sorting that may fail -/

theorem isBefore_int (first second : Int) :
    Json.isBefore (.int first) (.int second) = .ok (decide (first < second)) := by
  have order : (compare first second == .lt) = decide (first < second) := by
    rw [Bool.eq_iff_iff, beq_iff_eq, decide_eq_true_eq, Int.compare_eq_lt]
  simp only [Json.isBefore, Json.scalarBefore, Json.compareNumbers?, Json.wholeNumber?]
  rw [← order]
  rfl

section

variable {α β : Type} {score : α → Int} {view : α → β} {isBefore : β → β → Outcome Bool}
  (compared : ∀ first second, isBefore (view first) (view second) =
    .ok (decide (score first < score second)))

include compared

/-- An item goes behind all that score more, up to the first one that does not. -/
theorem insertFromEnd_map {item : α} {above below : List α}
    (higher : ∀ other ∈ above, score item < score other)
    (notHigher : ∀ other ∈ below, score other ≤ score item) :
    insertFromEnd isBefore (view item) ((above ++ below).map view) =
      .ok ((above ++ item :: below).map view) := by
  induction above with
  | nil =>
      cases below with
      | nil => rfl
      | cons other below =>
          have lower : ¬ score item < score other :=
            Int.not_lt.mpr (notHigher other mem_cons_self)
          simp only [nil_append, map_cons, insertFromEnd, compared, lower, decide_false,
            bind, Except.bind, Bool.false_eq_true, if_false, pure, Except.pure]
  | cons other above ih =>
      have first := higher other mem_cons_self
      have rest := ih fun another member => higher another (mem_cons_of_mem _ member)
      simp only [cons_append, map_cons, insertFromEnd, compared, first, decide_true, rest,
        bind, Except.bind, if_true, pure, Except.pure]

theorem sortedFromEnd_map (done rest : List α) :
    sortedFromEnd isBefore ((ranked score done).map view) (rest.map view) =
      .ok ((ranked score (rest.reverse ++ done)).map view) := by
  induction rest generalizing done with
  | nil => rfl
  | cons item rest ih =>
      rcases ranked_cons score item done with ⟨above, below, placed, others, higher, notHigher⟩
      have inserted := insertFromEnd_map compared higher notHigher
      rw [← placed] at inserted
      rw [map_cons, sortedFromEnd, others, inserted, reverse_cons, append_assoc]
      exact ih (item :: done)

/-- Where items are compared by scores, sorting does not fail. -/
theorem descending_map (items : List α) :
    descending isBefore (items.map view) = .ok ((ranked score items).map view) := by
  have sorted := sortedFromEnd_map compared [] items.reverse
  rw [reverse_reverse, append_nil, map_reverse, ranked_nil] at sorted
  exact sorted

end

/-! ## Levels -/

section

variable {α : Type} {isBefore : α → α → Outcome Bool} {level : α → Nat} {known : α → Prop}
  (compared : ∀ first second, known first → known second → ∃ answer,
    isBefore first second = .ok answer ∧ (level first < level second → answer = true) ∧
      (level second < level first → answer = false))

include compared

/-- Where comparing respects levels, an item goes among its own level. -/
theorem insertFromEnd_levels {item : α} {items : List α} (knownItem : known item)
    (knownItems : ∀ other ∈ items, known other)
    (sorted : items.Pairwise fun first second => level second ≤ level first) :
    ∃ placed, insertFromEnd isBefore item items = .ok placed ∧ placed.Perm (item :: items) ∧
      placed.Pairwise fun first second => level second ≤ level first := by
  induction items with
  | nil => exact ⟨[item], rfl, .refl _, pairwise_singleton _ _⟩
  | cons last earlier ih =>
      rw [pairwise_cons] at sorted
      rcases compared item last knownItem (knownItems last mem_cons_self) with
        ⟨answer, given, lower, higher⟩
      cases answer with
      | true =>
          have below : level item ≤ level last := by
            by_contra above
            cases higher (Nat.lt_of_not_le above)
          rcases ih (fun other member => knownItems other (mem_cons_of_mem last member))
            sorted.2 with ⟨placed, inserted, perm, levels⟩
          refine ⟨last :: placed, ?_, (perm.cons last).trans (.swap item last earlier), ?_⟩
          · rw [insertFromEnd, given]
            simp only [bind, Except.bind, if_true, inserted]
            rfl
          · rw [pairwise_cons]
            refine ⟨?_, levels⟩
            intro other member
            rcases mem_cons.mp (perm.mem_iff.mp member) with rfl | inside
            · exact below
            · exact sorted.1 other inside
      | false =>
          have above : level last ≤ level item := by
            by_contra below
            cases lower (Nat.lt_of_not_le below)
          refine ⟨item :: last :: earlier, ?_, .refl _, ?_⟩
          · rw [insertFromEnd, given]
            rfl
          · rw [pairwise_cons, pairwise_cons]
            refine ⟨?_, sorted⟩
            intro other member
            rcases mem_cons.mp member with rfl | inside
            · exact above
            · exact Nat.le_trans (sorted.1 other inside) above

theorem sortedFromEnd_levels {done rest : List α} (knownDone : ∀ item ∈ done, known item)
    (knownRest : ∀ item ∈ rest, known item)
    (sorted : done.Pairwise fun first second => level second ≤ level first) :
    ∃ result, sortedFromEnd isBefore done rest = .ok result ∧ result.Perm (rest ++ done) ∧
      result.Pairwise fun first second => level second ≤ level first := by
  induction rest generalizing done with
  | nil => exact ⟨done, rfl, .refl _, sorted⟩
  | cons item rest ih =>
      have knownItem := knownRest item mem_cons_self
      rcases insertFromEnd_levels compared knownItem knownDone sorted with
        ⟨placed, inserted, perm, levels⟩
      have knownPlaced : ∀ other ∈ placed, known other := by
        intro other member
        rcases mem_cons.mp (perm.mem_iff.mp member) with rfl | inside
        · exact knownItem
        · exact knownDone other inside
      rcases ih knownPlaced (fun other member => knownRest other (mem_cons_of_mem item member))
        levels with ⟨result, ran, all, ordered⟩
      refine ⟨result, ?_, ?_, ordered⟩
      · rw [sortedFromEnd, inserted]
        exact ran
      · exact all.trans ((perm.append_left rest).trans perm_middle)

/-- Sorting gives all items, level by level from the highest. -/
theorem descending_levels {items : List α} (knownItems : ∀ item ∈ items, known item) :
    ∃ result, descending isBefore items = .ok result ∧ result.Perm items ∧
      result.Pairwise fun first second => level second ≤ level first := by
  have knownRest : ∀ item ∈ items.reverse, known item := fun item member =>
    knownItems item (mem_reverse.mp member)
  rcases sortedFromEnd_levels compared (fun _ member => by cases member) knownRest .nil with
    ⟨result, ran, perm, sorted⟩
  rw [append_nil] at perm
  exact ⟨result, ran, perm.trans items.reverse_perm, sorted⟩

omit compared in
/-- Among the first items there is one of the second level exactly when there is one at all and
those of the first level leave room for it. -/
theorem exists_mem_take_iff {items : List α}
    (sorted : items.Pairwise fun first second => level second ≤ level first)
    (bounded : ∀ item ∈ items, level item ≤ 2) (count : Nat) :
    (∃ item ∈ items.take count, level item = 1) ↔
      (∃ item ∈ items, level item = 1) ∧ items.countP (fun item => level item = 2) < count := by
  induction items generalizing count with
  | nil => simp
  | cons first rest ih =>
      rw [pairwise_cons] at sorted
      have below := ih sorted.2 fun item member => bounded item (mem_cons_of_mem first member)
      have bound := bounded first mem_cons_self
      cases count with
      | zero => simp
      | succ count =>
          rw [take_succ_cons, countP_cons]
          have cases : level first = 2 ∨ level first = 1 ∨ level first = 0 := by omega
          rcases cases with two | one | zero
          · simp [two, below]
          · have none : rest.countP (fun item => decide (level item = 2)) = 0 := by
              rw [countP_eq_zero]
              intro item member
              have := sorted.1 item member
              rw [decide_eq_true_eq]
              omega
            simp [one, none]
          · have none : ¬ ∃ item ∈ first :: rest, level item = 1 := by
              rintro ⟨item, member, one⟩
              rcases mem_cons.mp member with rfl | inside
              · omega
              · have := sorted.1 item inside
                omega
            constructor
            · rintro ⟨item, member, one⟩
              exact absurd ⟨item, cons_subset_cons first (take_subset count rest) member,
                one⟩ none
            · rintro ⟨some, _⟩
              exact absurd some none

end

end Sorting
end CodeQuality
