namespace CodeQuality
namespace Number

/-!
Double-precision numbers by their bits.

Keeping the bits makes equality of values decidable and tells the two zeros
apart.  Every operation is done exactly on whole numbers and then rounded once, to
the nearest number, a tie to the even one.  So every result can be computed and
reasoned about without the machine's own arithmetic.
-/

/-- A power of two. -/
def twoTo (exponent : Nat) : Nat := Nat.pow 2 exponent

/-- A power of ten. -/
def tenTo (exponent : Nat) : Nat := Nat.pow 10 exponent

/-- A double-precision number, held as its sixty-four bits. -/
structure Binary64 where
  bits : UInt64
deriving DecidableEq

namespace Binary64

/-- The biased exponent. -/
def exponentField (x : Binary64) : Nat := (x.bits.toNat / twoTo 52) % twoTo 11

/-- The stored fraction. -/
def fractionField (x : Binary64) : Nat := x.bits.toNat % twoTo 52

/-- Whether the sign bit is set. -/
def isNegative (x : Binary64) : Bool := x.bits.toNat / twoTo 63 == 1

/-- Whether the bits stand for no number. -/
def isNaN (x : Binary64) : Bool := x.exponentField == 2047 && x.fractionField != 0

/-- Whether the bits stand for an infinity. -/
def isInfinite (x : Binary64) : Bool := x.exponentField == 2047 && x.fractionField == 0

/-- The magnitude of a finite number as an integer and a power of two. -/
def magnitude (x : Binary64) : Nat × Int :=
  if x.exponentField = 0 then (x.fractionField, -1074)
  else (x.fractionField + twoTo 52, (x.exponentField : Int) - 1075)

/-- The magnitude of a finite number as a quotient of natural numbers. -/
def ratio (x : Binary64) : Nat × Nat :=
  let (m, q) := x.magnitude
  if q < 0 then (m, twoTo (-q).toNat) else (m * twoTo q.toNat, 1)

/-- The integer part of a finite number, toward zero. -/
def truncate (x : Binary64) : Int :=
  let (num, den) := x.ratio
  let whole : Int := (num / den : Nat)
  if x.isNegative then -whole else whole

/-- The bits of a magnitude `m · 2^q`, where `m` is below `2^53`, or is `2^53` after rounding up.
Nothing when the exponent is out of range. -/
def assemble? (m : Nat) (q : Int) : Option Nat :=
  if m < twoTo 52 then some m
  else
    let bits := (q + 1074).toNat * twoTo 52 + m
    if bits < 2047 * twoTo 52 then some bits else none

/-- The exponent at which a quotient has fifty-three significant bits, or the least exponent. -/
def scaleOf (num den : Nat) : Int :=
  let guess : Int := (num.log2 : Int) - (den.log2 : Int) - 52
  let quotient := fun (q : Int) =>
    if q < 0 then num * twoTo (-q).toNat / den else num / (den * twoTo q.toNat)
  let scale := if quotient guess < twoTo 52 then guess - 1 else guess
  max scale (-1074)

/-- The nearest magnitude to a quotient; a tie goes to the even neighbour.  Nothing when the
quotient is too large. -/
def nearest? (num den : Nat) : Option Nat :=
  if num = 0 ∨ den = 0 then some 0
  else
    let q := scaleOf num den
    let scaledNum := if q < 0 then num * twoTo (-q).toNat else num
    let scaledDen := if q < 0 then den else den * twoTo q.toNat
    let floor := scaledNum / scaledDen
    let twice := 2 * (scaledNum % scaledDen)
    let up := scaledDen < twice ∨ (twice = scaledDen ∧ floor % 2 = 1)
    assemble? (if up then floor + 1 else floor) q

/-- A number from its sign and the bits of its magnitude. -/
def ofMagnitude (negative : Bool) (bits : Nat) : Binary64 :=
  ⟨UInt64.ofNat (bits + if negative then twoTo 63 else 0)⟩

/-- An infinity. -/
def infinity (negative : Bool) : Binary64 := ofMagnitude negative (2047 * twoTo 52)

/-- The value that is not a number. -/
def nan : Binary64 := ⟨0x7ff8000000000000⟩

/-- The nearest number to a quotient of integers with a positive divisor. -/
def ofRatio? (num : Int) (den : Nat) : Option Binary64 :=
  (nearest? num.natAbs den).map (ofMagnitude (num < 0))

/-- The nearest number to an integer; nothing when it is too large. -/
def ofInt? (n : Int) : Option Binary64 := ofRatio? n 1

/-- The order of a number and an integer, decided exactly.  Nothing for what is not a number. -/
def compareInt (x : Binary64) (n : Int) : Option Ordering :=
  if x.isNaN then none
  else if x.isInfinite then some (if x.isNegative then .lt else .gt)
  else
    let (num, den) := x.ratio
    let signed : Int := if x.isNegative then -(num : Int) else num
    some (compare signed (n * den))

/-- The value of a finite number as a whole number and a power of two. -/
def scaled (x : Binary64) : Int × Int :=
  let (m, q) := x.magnitude
  (if x.isNegative then -(m : Int) else m, q)

/-- A whole number times a power of two that is not below nought. -/
def shifted (n : Int) (q : Int) : Int := n * (twoTo q.toNat : Nat)

/-- The order of two numbers; the two zeros are equal.  Nothing when one is not a number. -/
def compareWith (x y : Binary64) : Option Ordering :=
  if x.isNaN || y.isNaN then none
  else
    let rank := fun (z : Binary64) =>
      if z.isInfinite then if z.isNegative then (-1 : Int) else 1 else 0
    if x.isInfinite || y.isInfinite then some (compare (rank x) (rank y))
    else
      let (m, p) := x.scaled
      let (n, q) := y.scaled
      let low := min p q
      some (compare (shifted m (p - low)) (shifted n (q - low)))

/-! ## Arithmetic -/

/-- The result of an operation that has none. -/
def invalid : Binary64 := ⟨0xfff8000000000000⟩

/-- A value that is not a number, as the result of an operation on it. -/
def quieted (x : Binary64) : Binary64 := ⟨x.bits ||| 0x0008000000000000⟩

/-- The number with the other sign. -/
def negate (x : Binary64) : Binary64 := ⟨x.bits ^^^ 0x8000000000000000⟩

/-- The nearest number to a quotient with a sign; an infinity when it is too large. -/
def rounded (negative : Bool) (num den : Nat) : Binary64 :=
  match nearest? num den with
  | some bits => ofMagnitude negative bits
  | none => infinity negative

/-- The nearest number to `m · 2^q` with a sign. -/
def roundedPower (negative : Bool) (m : Nat) (q : Int) : Binary64 :=
  if q < 0 then rounded negative m (twoTo (-q).toNat) else rounded negative (m * twoTo q.toNat) 1

/-- The sum of two finite numbers.  A sum of nought is negative only if both terms are. -/
def addFinite (x y : Binary64) : Binary64 :=
  let (m, p) := x.scaled
  let (n, q) := y.scaled
  let low := min p q
  let sum := shifted m (p - low) + shifted n (q - low)
  if sum = 0 then ofMagnitude (x.isNegative && y.isNegative) 0
  else roundedPower (sum < 0) sum.natAbs low

/-- The sum of two numbers. -/
def add (x y : Binary64) : Binary64 :=
  if x.isNaN then x.quieted
  else if y.isNaN then y.quieted
  else if x.isInfinite then
    if y.isInfinite && x.isNegative != y.isNegative then invalid else x
  else if y.isInfinite then y
  else addFinite x y

/-- The difference of two numbers. -/
def sub (x y : Binary64) : Binary64 := if y.isNaN && !x.isNaN then y.quieted else add x y.negate

/-- The product of two numbers. -/
def mul (x y : Binary64) : Binary64 :=
  let negative := x.isNegative != y.isNegative
  if x.isNaN then x.quieted
  else if y.isNaN then y.quieted
  else
    let (m, p) := x.magnitude
    let (n, q) := y.magnitude
    if x.isInfinite then
      if !y.isInfinite && n = 0 then invalid else infinity negative
    else if y.isInfinite then if m = 0 then invalid else infinity negative
    else roundedPower negative (m * n) (p + q)

/-- The quotient of two numbers. -/
def div (x y : Binary64) : Binary64 :=
  let negative := x.isNegative != y.isNegative
  if x.isNaN then x.quieted
  else if y.isNaN then y.quieted
  else if x.isInfinite then if y.isInfinite then invalid else infinity negative
  else if y.isInfinite then ofMagnitude negative 0
  else
    let (num, den) := x.ratio
    let (divisor, scale) := y.ratio
    if divisor = 0 then if num = 0 then invalid else infinity negative
    else rounded negative (num * scale) (den * divisor)

/-- The whole part of the square root of a number below `4^digits`. -/
def rootWithin : (digits : Nat) → Nat → Nat
  | 0, _ => 0
  | digits + 1, n =>
      let root := 2 * rootWithin digits (n / 4)
      if (root + 1) * (root + 1) ≤ n then root + 1 else root

/-- The whole part of a square root. -/
def rootOf (n : Nat) : Nat := rootWithin (n.log2 / 2 + 1) n

/-- The square root of a number.  The root is taken with twice the bits that are kept, and a last
bit says whether something was left. -/
def sqrt (x : Binary64) : Binary64 :=
  let (m, q) := x.magnitude
  if x.isNaN then x.quieted
  else if !x.isInfinite && m = 0 then x
  else if x.isNegative then invalid
  else if x.isInfinite then x
  else
    let even := if q % 2 = 0 then m else 2 * m
    let widened := even * twoTo 128
    let root := rootOf widened
    let left := if root * root < widened then 1 else 0
    roundedPower false (2 * root + left) ((q - q % 2) / 2 - 65)

instance : Add Binary64 := ⟨add⟩
instance : Sub Binary64 := ⟨sub⟩
instance : Mul Binary64 := ⟨mul⟩
instance : Div Binary64 := ⟨div⟩

end Binary64

end Number
end CodeQuality
