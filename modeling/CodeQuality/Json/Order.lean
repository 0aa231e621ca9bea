import CodeQuality.Json.Access

namespace CodeQuality
namespace Json

/-!
The order of values.

Numbers and truth values are ordered by value, texts by code point, lists by their
first difference.  Two values of kinds that have no common order cannot be compared,
so sorting values may fail.
-/

/-- The fault of comparing two values that have no common order. -/
def incomparable (symbol : String) (left right : Json) : Fault :=
  .wrongKind ("'" ++ symbol ++ "' not supported between instances of '" ++ left.kindName ++
    "' and '" ++ right.kindName ++ "'")

/-- The order of two numbers, if both values are numbers; the order is missing when one of them
is not a number in the floating-point sense. -/
def compareNumbers? (left right : Json) : Option (Option Ordering) :=
  match left, right with
  | .float a, .float b => some (a.compareWith b)
  | .float a, other => other.wholeNumber?.map fun n => a.compareInt n
  | other, .float b => other.wholeNumber?.map fun n => (b.compareInt n).map Ordering.swap
  | a, b =>
      match a.wholeNumber?, b.wholeNumber? with
      | some m, some n => some (some (compare m n))
      | _, _ => none

/-- Whether one scalar comes before another. -/
def scalarBefore (left right : Json) : Outcome Bool :=
  match left, right with
  | .str a, .str b => .ok (decide (a < b))
  | a, b =>
      match compareNumbers? a b with
      | some order => .ok (order == some .lt)
      | none => .error (incomparable "<" a b)

mutual

/-- Whether one value comes before another. -/
def isBefore : Json → Json → Outcome Bool
  | .arr items, other =>
      match other with
      | .arr others => itemsBefore items others
      | value => .error (incomparable "<" (.arr items) value)
  | value, other => scalarBefore value other

/-- Whether one list comes before another: the first items that differ decide. -/
def itemsBefore : List Json → List Json → Outcome Bool
  | [], others => .ok (!others.isEmpty)
  | item :: items, others =>
      match others with
      | [] => .ok false
      | other :: rest => if same item other then itemsBefore items rest else isBefore item other

end

/-- Whether a value is at most another one, for numbers. -/
def isAtMost (left right : Json) : Outcome Bool :=
  match compareNumbers? left right with
  | some order => .ok (order == some .lt || order == some .eq)
  | none => .error (incomparable "<=" left right)

/-- The smaller of two values, the first one when neither is smaller. -/
def smaller (first second : Json) : Outcome Json := do
  if ← isBefore second first then pure second else pure first

/-- The larger of two values, the first one when neither is larger. -/
def larger (first second : Json) : Outcome Json := do
  if ← isBefore first second then pure second else pure first

end Json

namespace Sorting

/-- Put an item behind the last item of a list that it does not come before; the list is given
from its end. -/
def insertFromEnd (isBefore : α → α → Outcome Bool) (item : α) : List α → Outcome (List α)
  | [] => .ok [item]
  | last :: earlier => do
      if ← isBefore item last then
        let placed ← insertFromEnd isBefore item earlier
        pure (last :: placed)
      else pure (item :: last :: earlier)

/-- The items in order, from the last to the first; equal ones keep their order. -/
def sortedFromEnd (isBefore : α → α → Outcome Bool) (done : List α) :
    List α → Outcome (List α)
  | [] => .ok done
  | item :: rest => do
      let placed ← insertFromEnd isBefore item done
      sortedFromEnd isBefore placed rest

/-- The items in descending order; equal ones keep their order. -/
def descending (isBefore : α → α → Outcome Bool) (items : List α) : Outcome (List α) :=
  sortedFromEnd isBefore [] items.reverse

/-- The items in descending order of a key that may be of any kind. -/
def descendingBy (key : α → Json) (items : List α) : Outcome (List α) :=
  descending (fun left right => Json.isBefore (key left) (key right)) items

end Sorting
end CodeQuality
