import CodeQuality.Text.Matcher
import Mathlib.Data.List.Basic

namespace CodeQuality
namespace Text

/-!
Blanks, word characters and letters.

The blanks are given by a few ranges of code points and the word characters by a table of
several hundred.  No character is both, so a word ends before a blank and the blanks
behind a word can be told from it.  Letters in any case are given by a table of capitals, and
none of them is a line break.
-/

/-! ## Characters in a table -/

/-- What bisection finds is an entry of the table around the code point. -/
theorem mem_of_bisect? {α : Type} {first last : α → Nat} {entries : Array α}
    {point low high : Nat} {entry : α}
    (found : bisect? first last entries point low high = some entry) :
    entry ∈ entries.toList ∧ first entry ≤ point ∧ point ≤ last entry := by
  fun_induction bisect? first last entries point low high with
  | case1 => cases found
  | case2 low high inside middle own listed before ih => exact ih found
  | case3 low high inside middle own listed notBefore behind ih => exact ih found
  | case4 low high inside middle own listed notBefore notBehind =>
      cases found
      rw [← Array.getElem?_toList] at listed
      exact ⟨List.mem_of_getElem? listed, Nat.le_of_not_lt notBefore, Nat.le_of_not_lt notBehind⟩
  | case5 => cases found

namespace Ranges

theorem exists_of_contains {set : Ranges} {c : Char} (inside : set.contains c = true) :
    ∃ range ∈ set.bounds.toList, range.1 ≤ c.toNat ∧ c.toNat ≤ range.2 := by
  rcases Option.isSome_iff_exists.mp inside with ⟨range, found⟩
  rcases mem_of_bisect? found with ⟨member, around⟩
  exact ⟨range, member, around⟩

/-- What is checked on the characters of a table holds of its ranges.  Taking the table as a list of
characters keeps the check from reading its text once for every character. -/
theorem all_bounds_decode {holds : Nat × Nat → Bool} {table : List Char}
    (checked : (decodeWords 0 (words table)).all holds = true) :
    (decode (String.ofList table)).bounds.toList.all holds = true := by
  rw [decode, String.toList_ofList]
  exact checked

end Ranges

/-! ## The two classes -/

/-- The code points of blanks, as ranges. -/
def blankRanges : List (Nat × Nat) :=
  [(9, 13), (0x1c, 0x20), (0x85, 0x85), (0xa0, 0xa0), (0x1680, 0x1680), (0x2000, 0x200a),
    (0x2028, 0x2029), (0x202f, 0x202f), (0x205f, 0x205f), (0x3000, 0x3000)]

variable {c : Char}

theorem exists_blankRange (blank : isBlank c = true) :
    ∃ range ∈ blankRanges, range.1 ≤ c.toNat ∧ c.toNat ≤ range.2 := by
  simp only [isBlank, Bool.or_eq_true, Bool.and_eq_true, decide_eq_true_eq, beq_iff_eq] at blank
  simp only [blankRanges, List.exists_mem_cons_iff, List.not_mem_nil, false_and, exists_false,
    or_false]
  omega

/-- Whether a range of word characters has no blanks in it. -/
def isClearOfBlanks (range : Nat × Nat) : Bool :=
  blankRanges.all fun blanks => decide (range.2 < blanks.1) || decide (blanks.2 < range.1)

set_option maxRecDepth 100000 in
theorem wordRanges_clear : wordRanges.bounds.toList.all isClearOfBlanks = true :=
  Ranges.all_bounds_decode (by decide +kernel)

theorem contains_wordRanges_of_isBlank (blank : isBlank c = true) :
    wordRanges.contains c = false := by
  rw [Bool.eq_false_iff]
  intro inside
  rcases Ranges.exists_of_contains inside with ⟨range, member, first, last⟩
  rcases exists_blankRange blank with ⟨blanks, listed, low, high⟩
  have clear :=
    List.all_eq_true.mp (List.all_eq_true.mp wordRanges_clear range member) blanks listed
  rw [Bool.or_eq_true, decide_eq_true_eq, decide_eq_true_eq] at clear
  omega

/-- A blank is no word character. -/
theorem isWord_of_isBlank (blank : isBlank c = true) : isWord c = false := by
  by_cases ascii : c.toNat < 128
  · have each : ((List.range 128).all fun point =>
        !isBlank (Char.ofNat point) || !isWord (Char.ofNat point)) = true := by decide +kernel
    have own := List.all_eq_true.mp each c.toNat (List.mem_range.mpr ascii)
    rw [Char.ofNat_toNat, blank, Bool.not_true, Bool.false_or, Bool.not_eq_true'] at own
    exact own
  · rw [isWord, if_neg ascii]
    exact contains_wordRanges_of_isBlank blank

/-! ## Letters in any case -/

/-- What is checked on the characters of a table holds of its runs. -/
theorem CaseRun.all_decodeAll {holds : CaseRun → Bool} {table : List Char}
    (checked : ((words table).map CaseRun.decode).all holds = true) :
    (CaseRun.decodeAll (String.ofList table)).toList.all holds = true := by
  rw [CaseRun.decodeAll, String.toList_ofList]
  exact checked

set_option maxRecDepth 100000 in
/-- No capital beyond ASCII is a line break. -/
theorem caseRuns_clear : (caseRuns.toList.all fun run =>
    decide (0x85 < run.first ∧ (run.last < 0x2028 ∨ 0x2029 < run.first))) = true :=
  CaseRun.all_decodeAll (by decide +kernel)

theorem toLowerChar_of_isLineBreak (ends : isLineBreak c = true) : toLowerChar c = c := by
  simp only [isLineBreak, Bool.or_eq_true, Bool.and_eq_true, decide_eq_true_eq, beq_iff_eq] at ends
  unfold toLowerChar
  split
  next =>
    rw [if_neg]
    intro capital
    have first : 65 ≤ c.toNat := capital.1
    omega
  next =>
    rw [if_neg (by omega)]
    cases found : bisect? CaseRun.first CaseRun.last caseRuns c.toNat 0 caseRuns.size with
    | none => rfl
    | some run =>
        rcases mem_of_bisect? found with ⟨member, first, last⟩
        have clear := of_decide_eq_true (List.all_eq_true.mp caseRuns_clear run member)
        omega

/-- A letter in any case is no line break. -/
theorem isLineBreak_of_isLetter {letter : Char} (clear : isLineBreak letter = false)
    (same : isLetter letter c = true) : isLineBreak c = false := by
  refine Bool.eq_false_iff.mpr fun ends => ?_
  simp only [isLetter, toLowerChar_of_isLineBreak ends, Bool.or_eq_true, Bool.and_eq_true,
    beq_iff_eq] at same
  rcases same with (rfl | ⟨-, rfl⟩) | ⟨-, rfl⟩
  · rw [clear] at ends
    cases ends
  · cases ends
  · cases ends

end Text
end CodeQuality
