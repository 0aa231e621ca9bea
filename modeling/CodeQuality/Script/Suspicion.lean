import CodeQuality.Survey.Basic
import CodeQuality.Text.Matcher

namespace CodeQuality
namespace Script

/-!
Suspicious constructs of a script, found by their words in any case.
-/

open Text

/-- What is left after an opening bracket with blanks before it. -/
def afterBracket? (text : List Char) : Option (List Char) := after? ['('] (trimLeft text)

/-- A call of the evaluator, as a word of its own. -/
def evaluation (before : Option Char) : Scanner Unit := fun text => do
  if (before.map isWord).getD false then none
  else
    let text ← afterAnyCase? "eval".toList text
    let text ← afterBracket? text
    pure ((), text)

/-- The making of a function from text. -/
def functionConstructor : Scanner Unit := fun text => do
  let text ← afterAnyCase? "new".toList text
  let text ← afterBlanks? text
  let text ← afterAnyCase? "function".toList text
  let text ← afterBracket? text
  pure ((), text)

/-- A use of the inner markup of an element. -/
def innerMarkup : Scanner Unit := fun text => do
  let text ← after? ['.'] text
  let text ← afterAnyCase? "innerhtml".toList text
  if startsWithWord text then none else pure ((), text)

/-- A direct write to the document. -/
def documentWrite : Scanner Unit := fun text => do
  let text ← afterAnyCase? "document".toList text
  let text ← after? ['.'] text
  let text ← afterAnyCase? "write".toList text
  let text ← afterBracket? text
  pure ((), text)

/-- The constructs with their names, in the order in which they are looked for. -/
def constructs : List (String × (Option Char → Scanner Unit)) :=
  [("eval", evaluation), ("new_function", fun _ => functionConstructor),
    ("innerHTML", fun _ => innerMarkup), ("document_write", fun _ => documentWrite)]

/-- How much text after a construct is shown. -/
def snippetMargin : Nat := 80

/-- How long a snippet is at most. -/
def snippetWidth : Nat := 200

/-- The text that shows a construct: the rest of its line. -/
def snippet (found : Match Unit) : List Char :=
  ((lines (found.text.take (found.length + snippetMargin))).headD []).take snippetWidth

/-- The suspicious constructs of a source text. -/
def suspicions (source : List Char) : List Survey.Suspicion :=
  constructs.flatMap fun (kind, scan) =>
    (findMatches scan source).map fun found =>
      ⟨kind, found.line, String.ofList (snippet found)⟩

end Script
end CodeQuality
