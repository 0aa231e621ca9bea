import CodeQuality.Json.Access
import CodeQuality.Symbols.Table

namespace CodeQuality
namespace Symbols

/-!
References between modules.

Every opening bracket behind a name in the text of a function refers to something: to
a member of another module if the name has dots in it, and otherwise to something in
the module itself.
-/

open Text

/-- A reference from one module to something in a module, with the line of the function that
makes it. -/
structure Reference where
  caller : String
  calleeModule : String
  calleeName : String
  line : Json

/-- The record of a reference. -/
def Reference.toJson (reference : Reference) : Json :=
  .obj [("caller_file", .str reference.caller), ("callee_module", .str reference.calleeModule),
    ("callee_name", .str reference.calleeName), ("lineno", reference.line)]

/-- The record of several references. -/
def referencesJson (references : List Reference) : Json :=
  .obj [("call_graph", .arr (references.map (·.toJson)))]

/-- The words with dots between them in front of a text, each a run of word characters: the words
and what is left.  The length of the text bounds the number of words. -/
def dottedWords : (bound : Nat) → List Char → List (List Char) × List Char
  | 0, text => ([], text)
  | bound + 1, text =>
      let word := text.takeWhile isWord
      let rest := text.dropWhile isWord
      match rest with
      | '.' :: next :: more =>
          if isWord next then
            let (words, left) := dottedWords bound (next :: more)
            (word :: words, left)
          else ([word], rest)
      | _ => ([word], rest)

/-- A name, perhaps with dots, in front of an opening bracket: its words. -/
def callee : Scanner (List (List Char)) := fun text =>
  if startsWithWord text then
    let (words, rest) := dottedWords text.length text
    match trimLeft rest with
    | '(' :: left => some (words, left)
    | _ => none
  else none

/-- The text of words with dots between them. -/
def dotted (words : List (List Char)) : String :=
  ".".intercalate (words.map String.ofList)

/-- The references that the text of a function makes. -/
def referencesIn (caller : String) (line : Json) (snippet : List Char) : List Reference :=
  (findMatches (fun _ => callee) snippet).map fun found =>
    let path := found.value.dropLast
    let name := String.ofList (found.value.getLastD [])
    ⟨caller, if path.isEmpty then caller else dotted path, name, line⟩

/-- The references that the functions of a module record make. -/
def moduleReferences (name : String) (entry : Json) : Outcome (List Reference) := do
  let functions ← (← entry.member "functions" (.arr [])).elements
  let found ← functions.mapM fun function => do
    match ← function.member "snippet" (.str "") with
    | .str snippet => pure (referencesIn name (← function.member "lineno" .null) snippet.toList)
    | other => .error (.wrongKind
        ("expected string or bytes-like object, got '" ++ other.kindName ++ "'"))
  pure found.flatten

/-- The references of the record of a symbol table. -/
def references (table : Json) : Outcome (List Reference) := do
  match ← table.member "modules" (.obj []) with
  | .obj modules =>
      let found ← modules.mapM fun (name, entry) => moduleReferences name entry
      pure found.flatten
  | other => .error (other.lacks "items")

end Symbols
end CodeQuality
