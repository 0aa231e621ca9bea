import CodeQuality.Number.Binary64
import Mathlib.Data.Nat.Bitwise
import Mathlib.Tactic.Ring

namespace CodeQuality
namespace Number
namespace Binary64

/-!
Results of arithmetic that stay in range.

`Within x k` says that the magnitude of a number is below the `k`-th power of two.
It is read off the exponent alone, so a number within a bound is neither infinite nor
without a value.  Every operation loses at most a factor of thirty-two against the
exact bound.  That is far from sharp, and enough for sums and quotients of small
whole numbers, for which no rounding has to be analysed.
-/

/-- The magnitude of a number is below a power of two. -/
def Within (x : Binary64) (k : Nat) : Prop := x.exponentField ≤ k + 1022

theorem twoTo_eq (exponent : Nat) : twoTo exponent = 2 ^ exponent := rfl

variable {x y : Binary64} {j k m b num den : Nat} {q : Int}

theorem Within.mono (within : x.Within j) (wider : j ≤ k) : x.Within k := by
  unfold Within at *
  omega

theorem Within.isNaN_eq_false (within : x.Within k) (room : k ≤ 1024) : x.isNaN = false := by
  unfold Within at within
  rw [isNaN, beq_eq_false_iff_ne.mpr (by omega), Bool.false_and]

theorem Within.isInfinite_eq_false (within : x.Within k) (room : k ≤ 1024) :
    x.isInfinite = false := by
  unfold Within at within
  rw [isInfinite, beq_eq_false_iff_ne.mpr (by omega), Bool.false_and]

/-! ## Magnitudes -/

/-- The magnitude of a number within a bound, as a whole number of fifty-three bits and an
exponent. -/
theorem Within.magnitude_bounds (within : x.Within k) :
    x.magnitude.1 < 2 ^ 53 ∧ x.magnitude.2 ≤ (k : Int) - 53 := by
  have fraction : x.fractionField < 2 ^ 52 := Nat.mod_lt _ (by decide)
  unfold Within at within
  by_cases small : x.exponentField = 0
  · rw [magnitude, if_pos small]
    exact ⟨by omega, by simp only; omega⟩
  · rw [magnitude, if_neg small, twoTo_eq]
    exact ⟨by simp only; omega, by simp only; omega⟩

/-- A product of a number below one power of two with another power of two. -/
theorem mul_two_pow_lt {a c : Nat} (small : m < 2 ^ a) (exponents : a + b ≤ c) :
    m * 2 ^ b < 2 ^ c := by
  calc
    m * 2 ^ b < 2 ^ a * 2 ^ b := Nat.mul_lt_mul_of_pos_right small (Nat.two_pow_pos b)
    _ = 2 ^ (a + b) := (Nat.pow_add 2 a b).symm
    _ ≤ 2 ^ c := Nat.pow_le_pow_right (by decide) exponents

theorem ratio_eq (x : Binary64) :
    x.ratio = if x.magnitude.2 < 0 then (x.magnitude.1, 2 ^ (-x.magnitude.2).toNat)
      else (x.magnitude.1 * 2 ^ x.magnitude.2.toNat, 1) := rfl

theorem Within.ratio_lt (within : x.Within k) : x.ratio.1 < x.ratio.2 * 2 ^ k := by
  rcases within.magnitude_bounds with ⟨mantissa, exponent⟩
  rw [ratio_eq]
  by_cases negative : x.magnitude.2 < 0
  · rw [if_pos negative, ← Nat.pow_add]
    exact lt_of_lt_of_le mantissa (Nat.pow_le_pow_right (by decide) (by omega))
  · rw [if_neg negative, Nat.one_mul]
    exact mul_two_pow_lt mantissa (by omega)

theorem ratio_den_pos (x : Binary64) : 0 < x.ratio.2 := by
  rw [ratio_eq]
  by_cases negative : x.magnitude.2 < 0
  · rw [if_pos negative]
    exact Nat.two_pow_pos _
  · rw [if_neg negative]
    exact Nat.one_pos

/-- Setting the sign bit does not touch the exponent. -/
theorem exponentField_ofMagnitude (negative : Bool) {bits : Nat} (inside : bits < 2 ^ 63) :
    (ofMagnitude negative bits).exponentField = bits / 2 ^ 52 := by
  cases negative with
  | false =>
      rw [exponentField, ofMagnitude]
      simp only [Bool.false_eq_true, if_false, Nat.add_zero, twoTo_eq, UInt64.toNat_ofNat']
      omega
  | true =>
      rw [exponentField, ofMagnitude]
      simp only [if_true, twoTo_eq, UInt64.toNat_ofNat']
      omega

theorem exponentField_negate (x : Binary64) : x.negate.exponentField = x.exponentField := by
  rw [exponentField, exponentField, negate, UInt64.toNat_xor, twoTo_eq, twoTo_eq,
    ← Nat.shiftRight_eq_div_pow, ← Nat.shiftRight_eq_div_pow, Nat.shiftRight_xor_distrib,
    Nat.xor_mod_two_pow]
  simp

/-! ## Rounding -/

/-- The scale at which a quotient is rounded, from both sides.  The guess is off by one at most,
so nothing is said about which of the two scales is taken. -/
theorem scaleOf_bounds (numPos : num ≠ 0) (small : num < den * 2 ^ k) :
    scaleOf num den ≤ max ((k : Int) - 52) (-1074) ∧
      (num.log2 : Int) - den.log2 - 53 ≤ scaleOf num den := by
  have denBound : den < 2 ^ (den.log2 + 1) := Nat.lt_log2_self
  have numBound : num < 2 ^ (den.log2 + 1 + k) := by
    refine lt_of_lt_of_le small ?_
    rw [Nat.pow_add]
    exact Nat.mul_le_mul_right _ denBound.le
  have logs : num.log2 < den.log2 + 1 + k := (Nat.log2_lt numPos).mpr numBound
  simp only [scaleOf]
  split <;> omega

theorem assemble?_bits (small : m ≤ 2 ^ 54) (upper : q ≤ max ((k : Int) - 52) (-1074))
    (room : k ≤ 1000) : ∃ bits, assemble? m q = some bits ∧ bits ≤ (k + 1026) * 2 ^ 52 := by
  have exponent : (q + 1074).toNat ≤ k + 1022 := by omega
  have product : (q + 1074).toNat * 2 ^ 52 ≤ (k + 1022) * 2 ^ 52 :=
    Nat.mul_le_mul_right _ exponent
  by_cases subnormal : m < 2 ^ 52
  · refine ⟨m, by rw [assemble?, twoTo_eq, if_pos subnormal], ?_⟩
    exact subnormal.le.trans (Nat.le_mul_of_pos_left _ (by omega))
  · have bound : (q + 1074).toNat * 2 ^ 52 + m ≤ (k + 1026) * 2 ^ 52 := by
      rw [show k + 1026 = k + 1022 + 4 from rfl, Nat.add_mul]
      exact Nat.add_le_add product small
    have finite : (q + 1074).toNat * 2 ^ 52 + m < 2047 * 2 ^ 52 :=
      lt_of_le_of_lt bound (Nat.mul_lt_mul_of_pos_right (by omega) (Nat.two_pow_pos 52))
    refine ⟨(q + 1074).toNat * 2 ^ 52 + m, ?_, bound⟩
    rw [assemble?, twoTo_eq, if_neg subnormal, if_pos finite]

/-- A quotient below a power of two is rounded to a number whose exponent is not much larger. -/
theorem nearest?_bits (small : num < den * 2 ^ k) (room : k ≤ 1000) :
    ∃ bits, nearest? num den = some bits ∧ bits ≤ (k + 1026) * 2 ^ 52 := by
  by_cases numZero : num = 0
  · exact ⟨0, by rw [nearest?, if_pos (Or.inl numZero)], Nat.zero_le _⟩
  have denPos : den ≠ 0 := by
    intro denZero
    rw [denZero, Nat.zero_mul] at small
    exact Nat.not_lt_zero _ small
  rcases scaleOf_bounds numZero small with ⟨upper, lower⟩
  rw [nearest?, if_neg (by rw [not_or]; exact ⟨numZero, denPos⟩)]
  generalize scaleOf num den = q at upper lower
  have numBound : num < 2 ^ (num.log2 + 1) := Nat.lt_log2_self
  have denBound : 2 ^ den.log2 ≤ den := Nat.log2_self_le denPos
  have floorBound : (if q < 0 then num * twoTo (-q).toNat else num) /
      (if q < 0 then den else den * twoTo q.toNat) < 2 ^ 54 := by
    by_cases negative : q < 0
    · rw [if_pos negative, if_pos negative, twoTo_eq, Nat.div_lt_iff_lt_mul (by omega)]
      calc
        num * 2 ^ (-q).toNat < 2 ^ (54 + den.log2) := mul_two_pow_lt numBound (by omega)
        _ = 2 ^ 54 * 2 ^ den.log2 := Nat.pow_add 2 54 _
        _ ≤ 2 ^ 54 * den := Nat.mul_le_mul_left _ denBound
    · rw [if_neg negative, if_neg negative, twoTo_eq,
        Nat.div_lt_iff_lt_mul (Nat.mul_pos (by omega) (Nat.two_pow_pos _))]
      calc
        num < 2 ^ (num.log2 + 1) := numBound
        _ ≤ 2 ^ (54 + (den.log2 + q.toNat)) := Nat.pow_le_pow_right (by decide) (by omega)
        _ = 2 ^ 54 * (2 ^ den.log2 * 2 ^ q.toNat) := by rw [Nat.pow_add, Nat.pow_add]
        _ ≤ 2 ^ 54 * (den * 2 ^ q.toNat) :=
          Nat.mul_le_mul_left _ (Nat.mul_le_mul_right _ denBound)
  have roundedBound : ∀ (up : Prop) [Decidable up] (floor : Nat), floor < 2 ^ 54 →
      (if up then floor + 1 else floor) ≤ 2 ^ 54 := by
    intro up _ floor bound
    split <;> omega
  exact assemble?_bits (roundedBound _ _ floorBound) upper room

theorem ofMagnitude_within (negative : Bool) {bits : Nat} (small : bits ≤ (k + 1026) * 2 ^ 52)
    (room : k ≤ 1000) : (ofMagnitude negative bits).Within (k + 4) := by
  have inside : bits < 2 ^ 63 :=
    lt_of_le_of_lt small (Nat.mul_lt_mul_of_pos_right (show k + 1026 < 2 ^ 11 by omega)
      (Nat.two_pow_pos 52))
  rw [Within, exponentField_ofMagnitude negative inside]
  exact Nat.div_le_of_le_mul (by rw [Nat.mul_comm]; exact small)

theorem rounded_within (negative : Bool) (small : num < den * 2 ^ k) (room : k ≤ 1000) :
    (rounded negative num den).Within (k + 4) := by
  rcases nearest?_bits small room with ⟨bits, found, bound⟩
  rw [rounded, found]
  exact ofMagnitude_within negative bound room

/-- The nearest number to a quotient of whole numbers below a power of two is there. -/
theorem ofRatio?_within {num : Int} (small : num.natAbs < den * 2 ^ k) (room : k ≤ 1000) :
    ∃ x, ofRatio? num den = some x ∧ x.Within (k + 4) := by
  rcases nearest?_bits small room with ⟨bits, found, bound⟩
  refine ⟨ofMagnitude (num < 0) bits, ?_, ofMagnitude_within _ bound room⟩
  rw [ofRatio?, found, Option.map_some]

theorem roundedPower_within (negative : Bool) (small : m < 2 ^ b) (exponents : (b : Int) + q ≤ k)
    (room : k ≤ 1000) : (roundedPower negative m q).Within (k + 4) := by
  rw [roundedPower]
  by_cases below : q < 0
  · rw [if_pos below, twoTo_eq]
    apply rounded_within negative _ room
    rw [← Nat.pow_add]
    exact lt_of_lt_of_le small (Nat.pow_le_pow_right (by decide) (by omega))
  · rw [if_neg below, twoTo_eq]
    apply rounded_within negative _ room
    rw [Nat.one_mul]
    exact mul_two_pow_lt small (by omega)

/-! ## Operations -/

theorem mul_within (left : x.Within j) (right : y.Within k) (room : j + k ≤ 1000) :
    (x * y).Within (j + k + 4) := by
  rcases left.magnitude_bounds with ⟨leftMantissa, leftExponent⟩
  rcases right.magnitude_bounds with ⟨rightMantissa, rightExponent⟩
  have product : x.magnitude.1 * y.magnitude.1 < 2 ^ 106 := by
    rw [show (2 : Nat) ^ 106 = 2 ^ 53 * 2 ^ 53 from Nat.pow_add 2 53 53]
    exact Nat.mul_lt_mul'' leftMantissa rightMantissa
  change (mul x y).Within (j + k + 4)
  rw [mul]
  simp only [left.isNaN_eq_false (by omega), right.isNaN_eq_false (by omega),
    left.isInfinite_eq_false (by omega), right.isInfinite_eq_false (by omega),
    Bool.false_eq_true, if_false]
  exact roundedPower_within _ product (by push_cast; omega) room

/-- Dividing by a number of magnitude one or more does not leave the range. -/
theorem div_within (left : x.Within j) (right : y.Within k) (large : y.ratio.2 ≤ y.ratio.1)
    (leftRoom : j ≤ 1000) (rightRoom : k ≤ 1000) : (x / y).Within (j + 4) := by
  have positive : y.ratio.1 ≠ 0 := by
    have denominator := ratio_den_pos y
    omega
  change (div x y).Within (j + 4)
  rw [div]
  simp only [left.isNaN_eq_false (by omega), right.isNaN_eq_false (by omega),
    left.isInfinite_eq_false (by omega), right.isInfinite_eq_false (by omega),
    Bool.false_eq_true, if_false, positive]
  apply rounded_within _ _ leftRoom
  calc
    x.ratio.1 * y.ratio.2 ≤ x.ratio.1 * y.ratio.1 := Nat.mul_le_mul_left _ large
    _ < x.ratio.2 * 2 ^ j * y.ratio.1 :=
      Nat.mul_lt_mul_of_pos_right left.ratio_lt (Nat.pos_of_ne_zero positive)
    _ = x.ratio.2 * y.ratio.1 * 2 ^ j := Nat.mul_right_comm _ _ _

theorem natAbs_scaled (x : Binary64) : x.scaled.1.natAbs = x.magnitude.1 := by
  rw [scaled]
  simp only
  split <;> simp

theorem natAbs_shifted_lt {n : Int} (small : n.natAbs < 2 ^ 53) (exponents : 53 + q.toNat ≤ b) :
    (shifted n q).natAbs < 2 ^ b := by
  rw [shifted, Int.natAbs_mul, Int.natAbs_natCast, twoTo_eq]
  exact mul_two_pow_lt small exponents

theorem addFinite_within (left : x.Within k) (right : y.Within k) (room : k ≤ 900) :
    (addFinite x y).Within (k + 5) := by
  rcases left.magnitude_bounds with ⟨leftMantissa, leftExponent⟩
  rcases right.magnitude_bounds with ⟨rightMantissa, rightExponent⟩
  rw [← natAbs_scaled] at leftMantissa rightMantissa
  have leftScale : x.scaled.2 = x.magnitude.2 := rfl
  have rightScale : y.scaled.2 = y.magnitude.2 := rfl
  rw [← leftScale] at leftExponent
  rw [← rightScale] at rightExponent
  rw [addFinite]
  simp only
  generalize x.scaled = first at *
  generalize y.scaled = second at *
  rcases first with ⟨m, p⟩
  rcases second with ⟨n, q⟩
  simp only at *
  split
  · exact (ofMagnitude_within (k := 0) _ (Nat.zero_le _) (by omega)).mono (by omega)
  · have leftBound : (shifted m (p - min p q)).natAbs < 2 ^ ((k : Int) - min p q).toNat :=
      natAbs_shifted_lt leftMantissa (by omega)
    have rightBound : (shifted n (q - min p q)).natAbs < 2 ^ ((k : Int) - min p q).toNat :=
      natAbs_shifted_lt rightMantissa (by omega)
    have sum : (shifted m (p - min p q) + shifted n (q - min p q)).natAbs <
        2 ^ (((k : Int) - min p q).toNat + 1) := by
      have triangle := Int.natAbs_add_le (shifted m (p - min p q)) (shifted n (q - min p q))
      rw [Nat.pow_succ]
      omega
    exact roundedPower_within (k := k + 1) _ sum (by push_cast; omega) (by omega)

theorem sub_within (left : x.Within k) (right : y.Within k) (room : k ≤ 900) :
    (x - y).Within (k + 5) := by
  have negated : y.negate.Within k := by
    rw [Within, exponentField_negate]
    exact right
  change (sub x y).Within (k + 5)
  rw [sub, right.isNaN_eq_false (by omega), Bool.false_and, if_neg Bool.false_ne_true, add]
  simp only [left.isNaN_eq_false (by omega), negated.isNaN_eq_false (by omega),
    left.isInfinite_eq_false (by omega), negated.isInfinite_eq_false (by omega),
    Bool.false_eq_true, if_false]
  exact addFinite_within left negated room

end Binary64
end Number
end CodeQuality
