import CodeQuality.Json.Order
import CodeQuality.Number.Decimal

namespace CodeQuality
namespace Json

/-!
Arithmetic on values.

Whole numbers stay whole and unbounded; as soon as a floating-point number takes
part the result is one.  A text or a list times a whole number is repeated.  Other
operands are faults.
-/

/-- The fault of an operation on two values that it does not work on. -/
def unsupported (symbol : String) (left right : Json) : Fault :=
  .wrongKind ("unsupported operand type(s) for " ++ symbol ++ ": '" ++ left.kindName ++ "' and '" ++
    right.kindName ++ "'")

/-- The floating-point number nearest to a whole one. -/
def nearestFloat (n : Int) : Outcome Number.Binary64 :=
  match Number.Binary64.ofInt? n with
  | some value => .ok value
  | none => .error (.overflow "int too large to convert to float")

/-- Two operands of an arithmetic operation. -/
inductive Operands where
  | whole (left right : Int)
  | float (left right : Number.Binary64)

/-- Two numbers as operands: whole if both are, and floating-point otherwise. -/
def operands? (left right : Json) : Outcome (Option Operands) :=
  match left, right with
  | .float a, .float b => .ok (some (.float a b))
  | .float a, other =>
      match other.wholeNumber? with
      | some n => do pure (some (.float a (← nearestFloat n)))
      | none => .ok none
  | other, .float b =>
      match other.wholeNumber? with
      | some n => do pure (some (.float (← nearestFloat n) b))
      | none => .ok none
  | a, b =>
      match a.wholeNumber?, b.wholeNumber? with
      | some m, some n => .ok (some (.whole m n))
      | _, _ => .ok none

/-- The sum of two numbers. -/
def plus (left right : Json) : Outcome Json := do
  match ← operands? left right with
  | some (.whole m n) => pure (.int (m + n))
  | some (.float a b) => pure (.float (a + b))
  | none => .error (unsupported "+" left right)

/-- The difference of two numbers. -/
def minus (left right : Json) : Outcome Json := do
  match ← operands? left right with
  | some (.whole m n) => pure (.int (m - n))
  | some (.float a b) => pure (.float (a - b))
  | none => .error (unsupported "-" left right)

/-- The fault of repeating something other than a whole number of times. -/
def notACount (value : Json) : Fault :=
  .wrongKind ("can't multiply sequence by non-int of type '" ++ value.kindName ++ "'")

/-- A text or a list repeated as often as a whole number says. -/
def repeated? (sequence count : Json) : Option (Outcome Json) :=
  let times := fun (n : Int) => List.replicate n.toNat ()
  match sequence with
  | .str text =>
      some <| match count.wholeNumber? with
        | some n => .ok (.str (String.join ((times n).map fun _ => text)))
        | none => .error count.notACount
  | .arr items =>
      some <| match count.wholeNumber? with
        | some n => .ok (.arr ((times n).flatMap fun _ => items))
        | none => .error count.notACount
  | _ => none

/-- The product of two numbers, or a repetition. -/
def product (left right : Json) : Outcome Json := do
  match ← operands? left right with
  | some (.whole m n) => pure (.int (m * n))
  | some (.float a b) => pure (.float (a * b))
  | none =>
      match repeated? left right with
      | some result => result
      | none =>
          match repeated? right left with
          | some result => result
          | none => .error (unsupported "*" left right)

/-- The quotient of a number and a positive whole number, as a floating-point number. -/
def quotient (left : Json) (divisor : Nat) : Outcome Json :=
  match left with
  | .float a => do pure (.float (a / (← nearestFloat divisor)))
  | other =>
      match other.wholeNumber? with
      | some n =>
          match Number.Binary64.ofRatio? n divisor with
          | some value => .ok (.float value)
          | none => .error (.overflow "integer division result too large for a float")
      | none => .error (unsupported "/" left (.nat divisor))

/-- The fault of reading a text as a whole number that is none. -/
def notANumeral (text : String) : Fault :=
  .badValue ("invalid literal for int() with base 10: " ++ Text.quoted text)

/-- A text as a whole number. -/
def integerOfText (text : String) : Outcome Int :=
  match Number.integer? text.toList with
  | some n =>
      let digits := text.toList.countP fun c => (Text.digitValue? c).isSome
      if Number.maxIntegerDigits < digits then .error (.overlongNumeral digits) else .ok n
  | none => .error (notANumeral text)

/-- A value as a whole number; fractions are cut off. -/
def toInteger (value : Json) : Outcome Int :=
  match value with
  | .int n => .ok n
  | .bool flag => .ok (if flag then 1 else 0)
  | .float x =>
      if x.isNaN then .error (.badValue "cannot convert float NaN to integer")
      else if x.isInfinite then .error (.overflow "cannot convert float infinity to integer")
      else .ok x.truncate
  | .str text => integerOfText text
  | other => .error (.wrongKind
      ("int() argument must be a string, a bytes-like object or a real number, not '" ++
        other.kindName ++ "'"))

end Json
end CodeQuality
