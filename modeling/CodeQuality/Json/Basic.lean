import CodeQuality.Number.Binary64

namespace CodeQuality

/-!
JSON values.

Reports, documents and answers are exchanged as JSON, so one value type is the
common currency of the modules that read or write them.  An object keeps its
members in order of first arrival, and a key occurs once.  Integers are unbounded
and apart from floating-point numbers.
-/

/-- A JSON value.  Members of an object stand in order of first arrival. -/
inductive Json where
  | null
  | bool (value : Bool)
  | int (value : Int)
  | float (value : Number.Binary64)
  | str (text : String)
  | arr (items : List Json)
  | obj (members : List (String × Json))

namespace Json

instance : Inhabited Json := ⟨.null⟩

instance : Coe String Json := ⟨.str⟩

/-- A natural number as a JSON integer. -/
def nat (n : Nat) : Json := .int n

/-- Text if there is some, and null otherwise. -/
def ofText? : Option String → Json
  | some text => .str text
  | none => .null

/-- A number if there is one, and null otherwise. -/
def ofNat? : Option Nat → Json
  | some n => .nat n
  | none => .null

/-- A list of texts. -/
def texts (items : List String) : Json := .arr (items.map .str)

/-- The value under a key of a list of members. -/
def lookup? (key : String) : List (String × Json) → Option Json
  | [] => none
  | (name, value) :: rest => if name = key then some value else lookup? key rest

/-- Put a value under a key: in place when the key is there, and at the end otherwise. -/
def insertMember (key : String) (value : Json) : List (String × Json) → List (String × Json)
  | [] => [(key, value)]
  | (name, old) :: rest =>
      if name = key then (key, value) :: rest else (name, old) :: insertMember key value rest

/-- Looking up the key just written gives the value just written. -/
@[simp]
theorem lookup?_insertMember_self (key : String) (value : Json) (members : List (String × Json)) :
    lookup? key (insertMember key value members) = some value := by
  induction members with
  | nil => simp [insertMember, lookup?]
  | cons member rest ih =>
      rcases member with ⟨name, old⟩
      by_cases same : name = key
      · simp [insertMember, lookup?, same]
      · simp [insertMember, lookup?, same, ih]

/-- Writing a key leaves the value under every other key as it was. -/
theorem lookup?_insertMember_of_ne {key other : String} (different : other ≠ key)
    (value : Json) (members : List (String × Json)) :
    lookup? other (insertMember key value members) = lookup? other members := by
  induction members with
  | nil => simp [insertMember, lookup?, Ne.symm different]
  | cons member rest ih =>
      rcases member with ⟨name, old⟩
      by_cases same : name = key
      · subst same
        simp [insertMember, lookup?, Ne.symm different]
      · by_cases found : name = other
        · subst found
          simp [insertMember, lookup?, same]
        · simp [insertMember, lookup?, same, found, ih]

/-- The member of an object under a key; nothing for any other value. -/
def get? (value : Json) (key : String) : Option Json :=
  match value with
  | .obj members => lookup? key members
  | _ => none

/-- Put a value under a key of an object; any other value stays as it is. -/
def set (record : Json) (key : String) (value : Json) : Json :=
  match record with
  | .obj members => .obj (insertMember key value members)
  | other => other

/-- The text of a string value. -/
def text? : Json → Option String
  | .str text => some text
  | _ => none

/-- Whether a value counts as present: null, false, zero and everything empty do not. -/
def isTruthy : Json → Bool
  | .null => false
  | .bool value => value
  | .int value => value != 0
  | .float value => value.magnitude.1 != 0 || value.exponentField == 2047
  | .str text => !text.isEmpty
  | .arr items => !items.isEmpty
  | .obj members => !members.isEmpty

/-- The name of the kind of a value, as messages give it. -/
def kindName : Json → String
  | .null => "NoneType"
  | .bool _ => "bool"
  | .int _ => "int"
  | .float _ => "float"
  | .str _ => "str"
  | .arr _ => "list"
  | .obj _ => "dict"

/-- The integer that a whole number or a truth value stands for. -/
def wholeNumber? : Json → Option Int
  | .int value => some value
  | .bool value => some (if value then 1 else 0)
  | _ => none

/-- Equality of two scalars; numbers and truth values are equal when their values are. -/
def sameScalar : Json → Json → Bool
  | .null, .null => true
  | .str a, .str b => a == b
  | .float a, .float b => a.compareWith b == some .eq
  | .float a, b =>
      match b.wholeNumber? with
      | some n => a.compareInt n == some .eq
      | none => false
  | a, .float b =>
      match a.wholeNumber? with
      | some n => b.compareInt n == some .eq
      | none => false
  | a, b =>
      match a.wholeNumber?, b.wholeNumber? with
      | some m, some n => m == n
      | _, _ => false

mutual

/-- Equality of values: numbers by value, lists item by item, objects as maps. -/
def same : Json → Json → Bool
  | .arr items, other =>
      match other with
      | .arr others => sameItems items others
      | _ => false
  | .obj members, other =>
      match other with
      | .obj others => members.length == others.length && sameMembers members others
      | _ => false
  | value, other =>
      match other with
      | .arr _ => false
      | .obj _ => false
      | other => sameScalar value other

/-- Item by item equality of two lists of values. -/
def sameItems : List Json → List Json → Bool
  | [], others => others.isEmpty
  | item :: items, others =>
      match others with
      | [] => false
      | other :: rest => same item other && sameItems items rest

/-- Whether every member has an equal value under the same key of the other object. -/
def sameMembers : List (String × Json) → List (String × Json) → Bool
  | [], _ => true
  | (key, value) :: members, others =>
      match lookup? key others with
      | some other => same value other && sameMembers members others
      | none => false

end

/-- Whether a value is this very text. -/
def isText (value : Json) (text : String) : Bool :=
  match value with
  | .str own => own == text
  | _ => false

end Json
end CodeQuality
