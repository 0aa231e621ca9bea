import CodeQuality.Analysis
import CodeQuality.Proofs.Number.Range
import CodeQuality.Proofs.Outcome
import CodeQuality.Proofs.Ranking

namespace CodeQuality
namespace Score

/-!
Scores are always there.

Scoring works on records whose fields may hold anything, so most of its steps can
fail.  For the records of findings none of them does: the score of a finding is the
score of its severity and five for each finding of its file, of which at most three
count.  The score of a repository is computed with floating-point numbers.  That it is
there follows from bounds on their magnitude; its value is not computed here.
-/

open Number Json ScoredFinding

/-! ## Whole numbers -/

theorem isBefore_nat (first second : Nat) :
    isBefore (.nat first) (.nat second) = .ok (decide (first < second)) := by
  rw [nat, nat, Sorting.isBefore_int]
  simp only [Int.ofNat_lt]

theorem smaller_nat (first second : Nat) :
    smaller (.nat first) (.nat second) = .ok (.nat (min first second)) := by
  rw [smaller, isBefore_nat]
  by_cases below : second < first
  · simp only [below, decide_true, bind, Except.bind, pure, Except.pure, if_true]
    rw [Nat.min_eq_right below.le]
  · simp only [below, decide_false, bind, Except.bind, pure, Except.pure, Bool.false_eq_true,
      if_false]
    rw [Nat.min_eq_left (by omega)]

theorem isAtMost_zero (n : Nat) : isAtMost (.nat n) (.int 0) = .ok (decide (n = 0)) := by
  cases n with
  | zero => rfl
  | succ n => rfl

/-- A whole number of at most a hundred, weighted neutrally and cut off. -/
def unweighted (n : Nat) : Outcome Int :=
  product (.nat n) neutralWeight >>= toInteger

variable {n : Nat} {x y : Binary64}

theorem unweighted_of_le (small : n ≤ 100) : unweighted n = .ok n := by
  have checked : ∀ n < 101, (unweighted n).toOption = some (n : Int) := by decide +kernel
  have holds := checked n (by omega)
  revert holds
  cases unweighted n with
  | error fault =>
      intro holds
      cases holds
  | ok value =>
      intro holds
      rw [Option.some.inj holds]

theorem product_int (m n : Int) : product (.int m) (.int n) = .ok (.int (m * n)) := rfl

theorem product_nat_int (m : Nat) (n : Int) :
    product (.nat m) (.int n) = .ok (.int (m * n)) := rfl

theorem plus_int (m n : Int) : plus (.int m) (.int n) = .ok (.int (m + n)) := rfl

theorem minus_int (m n : Int) : minus (.int m) (.int n) = .ok (.int (m - n)) := rfl

/-! ## The score of a finding -/

/-- The score that a severity of a finding stands for by itself. -/
def baseOf : Severity → Nat
  | .high => 75
  | .medium => 40
  | .low => 10
  | .missing => 40

/-- The score of a finding with a severity, in a file with a number of findings. -/
def ofFinding (severity : Severity) (heat : Nat) : Nat := baseOf severity + 5 * min maxHotness heat

theorem ofFinding_le (severity : Severity) (heat : Nat) : ofFinding severity heat ≤ 100 := by
  have counted : min maxHotness heat ≤ 3 := Nat.min_le_left _ _
  cases severity <;> simp only [ofFinding, baseOf] <;> omega

/-- A severity without a score of its own counts like a medium one. -/
theorem ofSeverity_name (severity : Severity) : ofSeverity severity.name = baseOf severity := by
  cases severity <;> decide +kernel

/-- The fields of a finding's record that scoring looks at.  No finding says how often it
occurs. -/
theorem lookup_members (finding : Finding) (more : List (String × Json)) :
    lookup? "severity" (finding.members ++ more) = some (.str finding.severity.name) ∧
      lookup? "occurrences" (finding.members ++ more) = lookup? "occurrences" more ∧
      lookup? "score" (finding.members ++ more) = lookup? "score" more := by
  cases details : finding.details <;> simp [Finding.members, details, lookup?]

/-- The score of a record with the severity of a finding that does not say how often it occurs. -/
theorem ofIssue_of_lookup {members : List (String × Json)} {severity : Severity}
    (named : lookup? "severity" members = some (.str severity.name))
    (single : lookup? "occurrences" members = none) (heat : Nat) :
    ofIssue (.obj members) (.nat heat) neutralWeight = .ok (ofFinding severity heat) := by
  have bounded := ofFinding_le severity heat
  have sum : (baseOf severity : Int) + (min maxHotness heat : Nat) * 5 - 10 * (1 - 1) =
      (ofFinding severity heat : Nat) := by
    rw [ofFinding]
    omega
  have whole : (product (.int (ofFinding severity heat : Nat)) neutralWeight >>=
      toInteger) = .ok (ofFinding severity heat : Int) := unweighted_of_le bounded
  have inRange : clamp (ofFinding severity heat) = ofFinding severity heat := by
    rw [clamp]
    omega
  calc
    ofIssue (.obj members) (.nat heat) neutralWeight =
        ((product (.int ((baseOf severity : Int) + (min maxHotness heat : Nat) * 5 -
            10 * (1 - 1))) neutralWeight >>= toInteger) >>=
          fun value => pure (clamp value)) := by
      simp only [ofIssue, member, named, single, Option.getD_some, Option.getD_none,
        ofSeverity_name, minus_int, product_int, smaller_nat, product_nat_int, plus_int, bind,
        Except.bind, pure, Except.pure]
      cases product (.int ((baseOf severity : Int) + (min maxHotness heat : Nat) * 5 -
        10 * (1 - 1))) neutralWeight <;> rfl
    _ = .ok (ofFinding severity heat) := by
      rw [sum, whole]
      exact congrArg Except.ok inRange

/-- The score of a finding's record, whatever has been added to the record other than a number of
occurrences. -/
theorem ofIssue_members (finding : Finding) (more : List (String × Json)) (heat : Nat)
    (single : lookup? "occurrences" more = none) :
    ofIssue (.obj (finding.members ++ more)) (.nat heat) neutralWeight =
      .ok (ofFinding finding.severity heat) := by
  rcases lookup_members finding more with ⟨severity, occurrences, _⟩
  exact ofIssue_of_lookup severity (occurrences.trans single) heat

/-! ## The score of a repository -/

theorem clamp_range (n : Int) : 0 ≤ clamp n ∧ clamp n ≤ 100 := by
  rw [clamp]
  omega

/-- A score of a repository lies in the range of scores, whatever the issues are. -/
theorem range_of_ofRepository {issues size trend : Json} :
    ∀ value, ofRepository issues size trend = .ok value → 0 ≤ value ∧ value ≤ 100 := by
  unfold ofRepository
  by_cases nothing : (!issues.isTruthy) = true
  · rw [if_pos nothing]
    rintro _ ⟨⟩
    decide
  rw [if_neg nothing]
  apply Outcome.forall_of_bind
  intro isSmall
  cases isSmall with
  | true =>
      rintro _ ⟨⟩
      decide
  | false =>
      -- of all the steps only the last one matters
      iterate 10
        apply Outcome.forall_of_bind
        intro _
      rintro _ ⟨⟩
      exact clamp_range _

/-- The record of a scored finding has its score. -/
theorem member_score (issue : ScoredFinding) (absent : Json) :
    issue.toJson.member "score" absent = .ok (.int issue.score) := by
  rw [toJson, member, (lookup_members _ _).2.2]
  rfl

/-- The sum of scores, when every record has one. -/
theorem total_map {α : Type} {view : α → Json} {score : α → Int}
    (known : ∀ item absent, (view item).member "score" absent = .ok (.int (score item)))
    (items : List α) : total (items.map view) = .ok (.int (items.map score).sum) := by
  have from_start : ∀ (items : List α) (start : Int),
      (items.map view).foldlM (fun sum issue => do
        plus sum (← issue.member "score" (.int 40))) (int start) =
      (.ok (.int (start + (items.map score).sum)) : Outcome Json) := by
    intro items
    induction items with
    | nil =>
        intro start
        rw [List.map_nil, List.map_nil, List.sum_nil, Int.add_zero]
        rfl
    | cons item rest ih =>
        intro start
        rw [List.map_cons, List.foldlM_cons, known, List.map_cons, List.sum_cons,
          ← Int.add_assoc, ← ih (start + score item)]
        rfl
  rw [total, from_start items 0, Int.zero_add]

theorem total_scores (issues : List ScoredFinding) :
    total (issues.map toJson) = .ok (.int (issues.map score).sum) :=
  total_map member_score issues

/-- The score of a repository depends on its issues only through their number and the sum of their
scores. -/
theorem ofRepository_congr {first second : List Json} (count : first.length = second.length)
    (sums : total first = total second) (size trend : Json) :
    ofRepository (.arr first) size trend = ofRepository (.arr second) size trend := by
  have truthy : (Json.arr first).isTruthy = (Json.arr second).isTruthy := by
    rw [Json.isTruthy, Json.isTruthy, Bool.eq_iff_iff]
    simp only [Bool.not_eq_true', List.isEmpty_eq_false_iff, ← List.length_pos_iff, count]
  simp only [ofRepository, truthy, Json.elements, sums, Json.size, count, bind, Except.bind]

/-- Scores of at most a hundred add up to at most a hundred for each. -/
theorem sum_scores_range (issues : List ScoredFinding)
    (ranged : ∀ issue ∈ issues, 0 ≤ issue.score ∧ issue.score ≤ 100) :
    0 ≤ (issues.map score).sum ∧ (issues.map score).sum ≤ 100 * issues.length := by
  induction issues with
  | nil => exact ⟨le_refl _, le_refl _⟩
  | cons issue rest ih =>
      have head := ranged issue List.mem_cons_self
      have tail := ih (fun other member => ranged other (List.mem_cons_of_mem _ member))
      rw [List.map_cons, List.sum_cons, List.length_cons]
      push_cast
      omega

/-- The number a hundred. -/
def hundred : Binary64 := ⟨0x4059000000000000⟩

theorem nearestFloat_hundred : nearestFloat 100 = .ok hundred := by
  have found : Binary64.ofInt? 100 = some hundred := by decide +kernel
  rw [nearestFloat, found]

theorem hundred_within : hundred.Within 7 := by
  unfold Binary64.Within
  decide +kernel

/-- A small whole number as a floating-point number. -/
theorem nearestFloat_within (small : n ≤ 50) : ∃ x, nearestFloat n = .ok x ∧ x.Within 10 := by
  have bound : (n : Int).natAbs < 1 * 2 ^ 6 := by
    rw [Int.natAbs_natCast]
    omega
  rcases Binary64.ofRatio?_within bound (by decide) with ⟨x, found, within⟩
  refine ⟨x, ?_, within⟩
  rw [nearestFloat, Binary64.ofInt?, found]

/-! The arithmetic of values, once one of them is a floating-point number. -/

theorem quotient_int {n : Int} {divisor : Nat} (found : Binary64.ofRatio? n divisor = some x) :
    quotient (.int n) divisor = .ok (.float x) := by
  simp only [quotient, wholeNumber?, found]

theorem quotient_float {divisor : Nat} (found : nearestFloat divisor = .ok y) :
    quotient (.float x) divisor = .ok (.float (x / y)) := by
  rw [quotient, found]
  rfl

theorem product_float_nat (found : nearestFloat n = .ok y) :
    product (.float x) (.nat n) = .ok (.float (x * y)) := by
  simp only [product, operands?, nat, wholeNumber?, found, bind, Except.bind,
    pure, Except.pure]

theorem product_float (x y : Binary64) :
    product (.float x) (.float y) = .ok (.float (x * y)) := rfl

theorem minus_int_float {n : Int} (found : nearestFloat n = .ok x) :
    minus (.int n) (.float y) = .ok (.float (x - y)) := by
  simp only [minus, operands?, wholeNumber?, found, bind, Except.bind, pure,
    Except.pure]

theorem toInteger_within {k : Nat} (within : x.Within k) (room : k ≤ 1024) :
    toInteger (.float x) = .ok x.truncate := by
  rw [toInteger, within.isNaN_eq_false room, within.isInfinite_eq_false room]
  rfl

/-- The score of a repository with scored findings is there, and it lies in the range of
scores. -/
theorem ofRepository_scores (issues : List ScoredFinding) (size : Nat)
    (ranged : ∀ issue ∈ issues, 0 ≤ issue.score ∧ issue.score ≤ 100) :
    ∃ value, ofRepository (.arr (issues.map toJson)) (.nat size) neutralWeight =
      .ok value ∧ 0 ≤ value ∧ value ≤ 100 := by
  by_cases empty : issues = []
  · subst empty
    exact ⟨100, rfl, by decide, by decide⟩
  by_cases nothing : size = 0
  · subst nothing
    refine ⟨100, ?_, by decide, by decide⟩
    cases issues with
    | nil => exact absurd rfl empty
    | cons issue rest => rfl
  have sumRange := sum_scores_range issues ranged
  have some : 0 < issues.length := List.length_pos_iff.mpr empty
  have sumBound : (issues.map score).sum.natAbs < issues.length * 2 ^ 7 := by
    omega
  rcases Binary64.ofRatio?_within sumBound (by decide) with ⟨average, averageFound, averageWithin⟩
  have shareWithin : (average / hundred).Within 15 :=
    Binary64.div_within averageWithin hundred_within (by decide +kernel) (by decide) (by decide)
  rcases nearestFloat_within (show min size maxFiles ≤ 50 from Nat.min_le_right _ _) with
    ⟨count, countFound, countWithin⟩
  have penaltyWithin := Binary64.mul_within shareWithin countWithin (by decide)
  have oneWithin : (⟨0x3ff0000000000000⟩ : Binary64).Within 1 := by
    unfold Binary64.Within
    decide +kernel
  have weightedWithin := Binary64.mul_within penaltyWithin oneWithin (by decide)
  have overallWithin := Binary64.sub_within (hundred_within.mono (by decide)) weightedWithin
    (by decide)
  refine ⟨clamp (hundred - average / hundred * count * ⟨0x3ff0000000000000⟩).truncate, ?_,
    clamp_range _⟩
  have truthy : (arr (issues.map toJson)).isTruthy = true := by
    rw [isTruthy, List.isEmpty_map, List.isEmpty_eq_false_iff.mpr empty]
    rfl
  have length : (arr (issues.map toJson)).size = .ok issues.length := by
    rw [Json.size, List.length_map]
  simp only [ofRepository, truthy, Bool.not_true, Bool.false_eq_true, if_false, isAtMost_zero,
    nothing, decide_false, elements, total_scores, length, quotient_int averageFound,
    quotient_float nearestFloat_hundred, smaller_nat, product_float_nat countFound, neutralWeight,
    product_float, minus_int_float nearestFloat_hundred,
    toInteger_within overallWithin (by decide), bind, Except.bind, pure, Except.pure]

end Score
end CodeQuality
