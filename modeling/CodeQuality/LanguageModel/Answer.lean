import CodeQuality.Json.Reader

namespace CodeQuality
namespace LanguageModel

/-!
Records inside what a language model says.

A model is asked for JSON and may put words around it.  What counts is the text from
the first opening to the last closing brace.
-/

/-- The text up to the last closing brace, if there is one. -/
def untilLastBrace? (text : List Char) : Option (List Char) :=
  match text.reverse.dropWhile (· ≠ '\x7d') with
  | [] => none
  | reversed => some reversed.reverse

/-- The text from the first opening to the last closing brace, if there is one. -/
def braced? (text : List Char) : Option (List Char) :=
  match text.dropWhile (· ≠ '\x7b') with
  | [] => none
  | from' => untilLastBrace? from'

/-- The record in a text; an empty one if there is none.  A numeral that is too long is a
fault. -/
def record (text : List Char) : Outcome Json :=
  match braced? text with
  | none => .ok (.obj [])
  | some inside =>
      match Json.load inside with
      | .error .malformedJson => .ok (.obj [])
      | outcome => outcome

/-- The record in what a model says, which may be nothing. -/
def recordIn (said : Json) : Outcome Json :=
  match said with
  | .str text => record text.toList
  | other => .error (.wrongKind
      ("expected string or bytes-like object, got '" ++ other.kindName ++ "'"))

end LanguageModel
end CodeQuality
