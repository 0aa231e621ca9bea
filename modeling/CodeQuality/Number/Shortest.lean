import CodeQuality.Number.Binary64

namespace CodeQuality
namespace Number

/-!
The shortest decimal text of a double-precision number.

Of all decimal numbers that round to the given one, those with the fewest digits
are taken, and of these the nearest.  The test is exact: the numbers that round
to `m · 2^q` form an interval, which holds its ends when `m` is even, and for each
digit count the two neighbours of the value on that decimal grid are tried.
`decimalText` then chooses between positional and exponent notation.
-/

/-- A finite, positive number with the interval of reals that round to it, over a common
denominator. -/
structure RoundingInterval where
  low : Nat
  value : Nat
  high : Nat
  den : Nat
  closed : Bool

/-- The rounding interval of a finite, positive number. -/
def RoundingInterval.of (x : Binary64) : RoundingInterval :=
  let (m, q) := x.magnitude
  -- Four units per step of `m`, so that half and quarter gaps are whole.
  let lowGap := if m = twoTo 52 ∧ -1074 < q then 1 else 2
  let scale := if 0 ≤ q then twoTo q.toNat else 1
  let den := if 0 ≤ q then 4 else 4 * twoTo (-q).toNat
  { low := (4 * m - lowGap) * scale, value := 4 * m * scale, high := (4 * m + 2) * scale,
    den := den, closed := m % 2 == 0 }

/-- Whether the decimal `digits · 10^power` rounds to the number. -/
def RoundingInterval.holds (interval : RoundingInterval) (digits : Nat) (power : Int) : Bool :=
  let scaled := if 0 ≤ power then digits * tenTo power.toNat * interval.den
    else digits * interval.den
  let unit := if 0 ≤ power then 1 else tenTo (-power).toNat
  if interval.closed then
    decide (interval.low * unit ≤ scaled) && decide (scaled ≤ interval.high * unit)
  else decide (interval.low * unit < scaled) && decide (scaled < interval.high * unit)

/-- The two neighbours of the value on the grid of multiples of `10^power`, nearer first. -/
def RoundingInterval.neighbours (interval : RoundingInterval) (power : Int) : List Nat :=
  let num := if 0 ≤ power then interval.value else interval.value * tenTo (-power).toNat
  let den := if 0 ≤ power then interval.den * tenTo power.toNat else interval.den
  let floor := num / den
  let twice := 2 * (num % den)
  if twice < den ∨ (twice = den ∧ floor % 2 = 0) then [floor, floor + 1]
  else [floor + 1, floor]

/-- How many times a positive quotient below one can be multiplied by ten before it reaches
one, up to a bound. -/
def leadingZeros : (bound num den : Nat) → Nat
  | 0, _, _ => 0
  | bound + 1, num, den => if den ≤ num then 0 else leadingZeros bound (10 * num) den + 1

/-- The power of ten of the leading digit of a positive quotient. -/
def leadingPower (num den : Nat) : Int :=
  if den ≤ num then ((Nat.toDigits 10 (num / den)).length : Int) - 1
  else -(leadingZeros 400 num den : Int)

/-- Try digit counts from `count` upwards; the result is a decimal integer and its power. -/
def searchShortest (interval : RoundingInterval) (lead : Int) :
    (tries count : Nat) → Nat × Int
  | 0, _ => (interval.value / interval.den, 0)
  | tries + 1, count =>
      let power := lead - (count : Int) + 1
      match (interval.neighbours power).find? fun digits => interval.holds digits power with
      | some digits => (digits, power)
      | none => searchShortest interval lead tries (count + 1)

/-- The digits of the shortest decimal without zeros at the end, and the power of ten of the
first of them. -/
def shortestDigits (x : Binary64) : List Char × Int :=
  let interval := RoundingInterval.of x
  let lead := leadingPower interval.value interval.den
  let (digits, power) := searchShortest interval lead 18 1
  let text := Nat.toDigits 10 digits
  let trimmed := (text.reverse.dropWhile (· = '0')).reverse
  (trimmed, power + (text.length : Int) - 1)

/-- Digits with the point after the first `lead + 1` of them. -/
def positional (digits : List Char) (lead : Int) : List Char :=
  if lead < 0 then
    ['0', '.'] ++ List.replicate ((-lead).toNat - 1) '0' ++ digits
  else
    let whole := lead.toNat + 1
    let front := digits.take whole
    let padding := List.replicate (whole - front.length) '0'
    let back := digits.drop whole
    front ++ padding ++ ['.'] ++ (if back.isEmpty then ['0'] else back)

/-- Digits in exponent notation; the exponent has a sign and at least two digits. -/
def withExponent (digits : List Char) (lead : Int) : List Char :=
  let mantissa := match digits with
    | [] => ['0']
    | [digit] => [digit]
    | first :: rest => first :: '.' :: rest
  let size := Nat.toDigits 10 lead.natAbs
  let padded := if size.length < 2 then '0' :: size else size
  mantissa ++ ['e', if lead < 0 then '-' else '+'] ++ padded

/-- The text of a number: positional from a ten-thousandth up to ten to the sixteenth, and with
an exponent beyond. -/
def decimalText (x : Binary64) : String :=
  if x.isNaN then "nan"
  else
    let sign := if x.isNegative then ['-'] else []
    let body :=
      if x.isInfinite then ['i', 'n', 'f']
      else if x.magnitude.1 = 0 then ['0', '.', '0']
      else
        let (digits, lead) := shortestDigits x
        if -4 ≤ lead ∧ lead < 16 then positional digits lead else withExponent digits lead
    String.ofList (sign ++ body)

end Number
end CodeQuality
