import CodeQuality.Fault
import CodeQuality.Json.Basic
import CodeQuality.Text.Case
import CodeQuality.Text.Search

namespace CodeQuality
namespace Json

/-!
Using values whose kind is not known beforehand.

Reports come back from storage and from requests, so a field may hold anything.
Each operation says what it gives for the kinds of value it works on and which
fault the others cause.
-/

/-- The fault of asking a value for an operation that its kind does not have. -/
def lacks (value : Json) (operation : String) : Fault :=
  .noAttribute ("'" ++ value.kindName ++ "' object has no attribute '" ++ operation ++ "'")

/-- The value under a key of a record, or another value when the key is not there. -/
def member (record : Json) (key : String) (absent : Json) : Outcome Json :=
  match record with
  | .obj members => .ok ((lookup? key members).getD absent)
  | other => .error (other.lacks "get")

/-- The fault of using a value as a container that is none. -/
def notSubscriptable (value : Json) : Fault :=
  .wrongKind ("'" ++ value.kindName ++ "' object is not subscriptable")

/-- The value under a key that has to be there. -/
def element (record : Json) (key : String) : Outcome Json :=
  match record with
  | .obj members =>
      match lookup? key members with
      | some value => .ok value
      | none => .error (.missingKey key)
  | .arr _ => .error (.wrongKind "list indices must be integers or slices, not str")
  | .str _ => .error (.wrongKind "string indices must be integers, not 'str'")
  | other => .error other.notSubscriptable

/-- The items of a value one after the other: of a list its items, of a text its characters, of
a record its keys. -/
def elements (value : Json) : Outcome (List Json) :=
  match value with
  | .arr items => .ok items
  | .str text => .ok (text.toList.map fun c => .str (String.singleton c))
  | .obj members => .ok (members.map fun pair => .str pair.1)
  | other => .error (.wrongKind ("'" ++ other.kindName ++ "' object is not iterable"))

/-- The number of items of a value. -/
def size (value : Json) : Outcome Nat :=
  match value with
  | .arr items => .ok items.length
  | .str text => .ok text.length
  | .obj members => .ok members.length
  | other => .error (.wrongKind ("object of type '" ++ other.kindName ++ "' has no len()"))

/-- The first items of a list, or the first characters of a text. -/
def leading (value : Json) (count : Nat) : Outcome Json :=
  match value with
  | .arr items => .ok (.arr (items.take count))
  | .str text => .ok (.str (String.ofList (text.toList.take count)))
  | .obj _ => .error (.wrongKind "unhashable type: 'slice'")
  | other => .error other.notSubscriptable

/-- The lower-case form of a text. -/
def lowered (value : Json) : Outcome String :=
  match value with
  | .str text => .ok (Text.lowerString text)
  | other => .error (other.lacks "lower")

/-- A value that can be a key.  Lists and records cannot. -/
def asKey (value : Json) : Outcome Json :=
  match value with
  | .arr _ => .error (.wrongKind "unhashable type: 'list'")
  | .obj _ => .error (.wrongKind "unhashable type: 'dict'")
  | other => .ok other

/-- Whether a text stands in a value: in a text as a part, in a list as an item, in a record as a
key. -/
def holdsText (value : Json) (text : String) : Outcome Bool :=
  match value with
  | .str own => .ok (Text.occursIn text.toList own.toList)
  | .arr items => .ok (items.any fun item => item.isText text)
  | .obj members => .ok (members.any fun pair => pair.1 == text)
  | other => .error (.wrongKind ("argument of type '" ++ other.kindName ++ "' is not iterable"))

/-- The value under a key that can be any value, among pairs. -/
def findPair? (key : Json) : List (Json × α) → Option α
  | [] => none
  | (own, value) :: rest => if same own key then some value else findPair? key rest

/-- Change the value under a key, which is added at the end when it is not there. -/
def updatePair (key : Json) (change : Option α → α) : List (Json × α) → List (Json × α)
  | [] => [(key, change none)]
  | (own, value) :: rest =>
      if same own key then (own, change (some value)) :: rest
      else (own, value) :: updatePair key change rest

/-- How often each key occurs, in order of first occurrence. -/
def tally (keys : List Json) : List (Json × Nat) :=
  keys.foldl (fun counts key => updatePair key (fun count => count.getD 0 + 1) counts) []

end Json
end CodeQuality
