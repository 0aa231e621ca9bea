import CodeQuality.Json.Basic
import CodeQuality.Number.Shortest
import CodeQuality.Text.Quoted

namespace CodeQuality
namespace Json

/-!
The text of a value inside a sentence.

A string is shown as it is when it stands alone and between quotes when it stands
inside a list or an object.  Absence, truth values and numbers have one form.
-/

mutual

/-- The text of a value that stands inside another value. -/
def nestedText : Json → String
  | .null => "None"
  | .bool true => "True"
  | .bool false => "False"
  | .int value => toString value
  | .float value => Number.decimalText value
  | .str text => Text.quoted text
  | .arr items => "[" ++ ", ".intercalate (nestedTexts items) ++ "]"
  | .obj members => "\x7b" ++ ", ".intercalate (memberTexts members) ++ "\x7d"

/-- The texts of the items of a list. -/
def nestedTexts : List Json → List String
  | [] => []
  | item :: items => nestedText item :: nestedTexts items

/-- The texts of the members of an object. -/
def memberTexts : List (String × Json) → List String
  | [] => []
  | (key, value) :: members =>
      (Text.quoted key ++ ": " ++ nestedText value) :: memberTexts members

end

/-- The text of a value that stands alone. -/
def display : Json → String
  | .str text => text
  | value => value.nestedText

/-- A string stands for itself. -/
@[simp]
theorem display_str (text : String) : display (.str text) = text := rfl

end Json
end CodeQuality
