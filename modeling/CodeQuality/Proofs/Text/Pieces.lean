import CodeQuality.Text.Search
import Mathlib.Data.List.Basic

namespace CodeQuality
namespace Text

/-!
Texts that are put together from pieces, and pieces that are cut out by position.

Places of documents and positions of findings are written as pieces with a mark
between them.  The pieces can be read back from the end as long as the last piece
does not contain the mark; nothing is asked of what stands before it.
-/

/-- Two lists that are equal and are cut at their last mark have the same two pieces. -/
theorem append_mark_inj {α : Type} {mark : α} {before other after next : List α}
    (afterClear : mark ∉ after) (nextClear : mark ∉ next)
    (same : before ++ mark :: after = other ++ mark :: next) : before = other ∧ after = next := by
  rcases List.append_eq_append_iff.mp same with ⟨between, whole, tails⟩ | ⟨between, whole, tails⟩
  · cases between with
    | nil => exact ⟨by simp [whole], (List.cons.inj tails).2⟩
    | cons head rest =>
        have inside : after = rest ++ mark :: next := (List.cons.inj tails).2
        exact absurd (inside ▸ List.mem_append_right rest List.mem_cons_self) afterClear
  · cases between with
    | nil => exact ⟨by simp [whole], (List.cons.inj tails).2.symm⟩
    | cons head rest =>
        have inside : next = rest ++ mark :: after := (List.cons.inj tails).2
        exact absurd (inside ▸ List.mem_append_right rest List.mem_cons_self) nextClear

/-- The numeral of a natural number contains nothing but digits. -/
theorem notMem_numeral {c : Char} (noDigit : c.isDigit = false) (n : Nat) :
    c ∉ (toString n).toList := by
  intro member
  rw [Nat.toString_eq_repr, Nat.toList_repr] at member
  have digit := Nat.isDigit_of_mem_toDigits (by decide) (by decide) member
  rw [noDigit] at digit
  exact Bool.false_ne_true digit

/-- Different natural numbers have different numerals. -/
theorem numeral_inj {first second : Nat} : toString first = toString second ↔ first = second := by
  constructor
  · intro same
    have digits := congrArg String.toList same
    simp only [Nat.toString_eq_repr, Nat.toList_repr] at digits
    have values := congrArg (fun chars => Nat.ofDigitChars 10 chars 0) digits
    simpa only [Nat.ofDigitChars_ten_toDigits] using values
  · exact congrArg toString

/-- With positions that count from the front, a slice is what is left after dropping and taking. -/
theorem slice_natCast {α : Type} (items : List α) (start count : Nat) :
    slice items start (start + count) = (items.drop start).take count := by
  have first : clamp items.length start = min start items.length := by
    rw [clamp, if_neg (by omega), Int.toNat_natCast]
  have last : clamp items.length (start + count) = min (start + count) items.length := by
    rw [clamp, if_neg (by omega), ← Int.natCast_add, Int.toNat_natCast]
  rw [slice, first, last, ← List.take_eq_take_min, List.drop_take]
  rcases Nat.le_total start items.length with inside | outside
  · rw [Nat.min_eq_left inside, Nat.add_sub_cancel_left]
  · rw [Nat.min_eq_right outside, List.drop_length, List.drop_eq_nil_of_le outside,
      List.take_nil, List.take_nil]

end Text
end CodeQuality
