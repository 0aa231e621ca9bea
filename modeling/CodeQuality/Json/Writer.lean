import CodeQuality.Json.Basic
import CodeQuality.Number.Shortest
import CodeQuality.Text.Quoted

namespace CodeQuality
namespace Json

/-!
JSON text in ASCII.

Everything beyond the printable ASCII characters is escaped; a character outside
the basic plane becomes a pair of surrogates.  Items and members are separated by
a comma and a space, keys and values by a colon and a space.
-/

/-- A sixteen-bit unit as an escape. -/
def unitEscape (unit : Nat) : List Char := ['\\', 'u'] ++ Text.hexDigits 4 unit

/-- One character inside a JSON string. -/
def escapedChar (c : Char) : List Char :=
  if c = '"' then ['\\', '"']
  else if c = '\\' then ['\\', '\\']
  else if c = '\n' then ['\\', 'n']
  else if c = '\r' then ['\\', 'r']
  else if c = '\t' then ['\\', 't']
  else if c.toNat = 12 then ['\\', 'f']
  else if c.toNat = 8 then ['\\', 'b']
  else if ' ' ≤ c ∧ c ≤ '~' then [c]
  else if c.toNat < 0x10000 then unitEscape c.toNat
  else
    let rest := c.toNat - 0x10000
    unitEscape (0xd800 + rest / 0x400) ++ unitEscape (0xdc00 + rest % 0x400)

/-- A JSON string. -/
def stringText (text : String) : String :=
  String.ofList (['"'] ++ text.toList.flatMap escapedChar ++ ['"'])

/-- The text of a floating-point number; what JSON has no number for is named. -/
def floatText (value : Number.Binary64) : String :=
  if value.isNaN then "NaN"
  else if value.isInfinite then (if value.isNegative then "-Infinity" else "Infinity")
  else Number.decimalText value

mutual

/-- The JSON text of a value. -/
def render : Json → String
  | .null => "null"
  | .bool true => "true"
  | .bool false => "false"
  | .int value => toString value
  | .float value => floatText value
  | .str text => stringText text
  | .arr items => "[" ++ ", ".intercalate (renderItems items) ++ "]"
  | .obj members => "\x7b" ++ ", ".intercalate (renderMembers members) ++ "\x7d"

/-- The JSON texts of the items of a list. -/
def renderItems : List Json → List String
  | [] => []
  | item :: items => render item :: renderItems items

/-- The JSON texts of the members of an object. -/
def renderMembers : List (String × Json) → List String
  | [] => []
  | (key, value) :: members =>
      (stringText key ++ ": " ++ render value) :: renderMembers members

end

end Json
end CodeQuality
