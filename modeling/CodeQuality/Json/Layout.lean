import CodeQuality.Json.Writer

namespace CodeQuality
namespace Json

/-!
JSON text over several lines.

Every item and every member stands on a line of its own, two spaces further in than
what it belongs to.  Empty lists and empty objects stay on one line.
-/

/-- A new line with an indentation. -/
def newLine (depth : Nat) : String := "\n" ++ String.ofList (List.replicate (2 * depth) ' ')

/-- Texts on lines of their own between two brackets. -/
def bracketed (opening closing : String) (depth : Nat) (texts : List String) : String :=
  match texts with
  | [] => opening ++ closing
  | lines => opening ++ newLine (depth + 1) ++ ("," ++ newLine (depth + 1)).intercalate lines ++
      newLine depth ++ closing

mutual

/-- The JSON text of a value that stands at a depth. -/
def layoutAt (depth : Nat) : Json → String
  | .arr items => bracketed "[" "]" depth (layoutItems (depth + 1) items)
  | .obj members => bracketed "\x7b" "\x7d" depth (layoutMembers (depth + 1) members)
  | scalar => render scalar

/-- The JSON texts of the items of a list. -/
def layoutItems (depth : Nat) : List Json → List String
  | [] => []
  | item :: items => layoutAt depth item :: layoutItems depth items

/-- The JSON texts of the members of an object. -/
def layoutMembers (depth : Nat) : List (String × Json) → List String
  | [] => []
  | (key, value) :: members =>
      (stringText key ++ ": " ++ layoutAt depth value) :: layoutMembers depth members

end

/-- The JSON text of a value over several lines. -/
def layout (value : Json) : String := layoutAt 0 value

end Json
end CodeQuality
