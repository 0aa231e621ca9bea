import CodeQuality.Number.Binary64
import CodeQuality.Text.Blank
import CodeQuality.Text.Digit

namespace CodeQuality
namespace Number

/-!
Reading numbers from decimal text.

`integer?` reads a whole number the way a person may type it: blanks around it, a
sign, digits of any script, and single low lines between digits.  `ofScientific`
gives the double-precision number nearest to a decimal with an exponent.
-/

/-- The value of a run of digits in which low lines stand only between two digits.
`afterDigit` says that a digit has just been read. -/
def digitRun? (value : Nat) (afterDigit : Bool) : List Char → Option Nat
  | [] => if afterDigit then some value else none
  | c :: rest =>
      if c = '_' then if afterDigit then digitRun? value false rest else none
      else
        match Text.digitValue? c with
        | some digit => digitRun? (10 * value + digit) true rest
        | none => none

/-- The most digits that a decimal integer may have. -/
def maxIntegerDigits : Nat := 4300

/-- The integer a text denotes, if it denotes one. -/
def integer? (text : List Char) : Option Int :=
  match Text.trim text with
  | '-' :: digits => (digitRun? 0 false digits).map fun value => -(value : Int)
  | '+' :: digits => (digitRun? 0 false digits).map fun value => (value : Int)
  | digits => (digitRun? 0 false digits).map fun value => (value : Int)

/-- The number nearest to `±digits · 10^power`; an infinity when it is too large. -/
def ofScientific (negative : Bool) (digits : Nat) (power : Int) : Binary64 :=
  let size := (digits.log2 : Int)
  if digits = 0 then Binary64.ofMagnitude negative 0
  else if 400 < power then Binary64.infinity negative
  else if power + size < -800 then Binary64.ofMagnitude negative 0
  else
    let magnitude :=
      if 0 ≤ power then Binary64.nearest? (digits * tenTo power.toNat) 1
      else Binary64.nearest? digits (tenTo (-power).toNat)
    match magnitude with
    | some bits => Binary64.ofMagnitude negative bits
    | none => Binary64.infinity negative

end Number
end CodeQuality
