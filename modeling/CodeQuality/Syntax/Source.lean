import CodeQuality.Syntax.Statement
import CodeQuality.Text.Line

namespace CodeQuality
namespace Syntax

/-!
Syntax trees of whole source texts, and the text of a node.
-/

/-- Why a text has no syntax tree. -/
inductive SourceFault where
  | nullCharacter
  | refused (text : String)
deriving DecidableEq

/-- What is said of a text that has no syntax tree. -/
def SourceFault.message : SourceFault → String
  | .nullCharacter => "source code string cannot contain null bytes"
  | .refused text => text

/-- The syntax tree of a text that is well-formed. -/
def tree? (text : List Char) : Option Node := do
  match (moduleRule (text.length + 3)).run (.all (← tokens? text) ⟨1, 0⟩) with
  | some (tree, ⟨[_], _, _⟩) => some tree
  | _ => none

/-- What an interpreter decides for itself: which well-formed sources it refuses all the same,
because they are nested too deeply or name characters that it does not know, and what it says of
the sources that it refuses. -/
structure Reader where
  refuses : List Char → Bool
  complaint : List Char → String

/-- The syntax tree of a source text, whose line ends may be of any kind. -/
def Reader.parse (reader : Reader) (source : List Char) : Except SourceFault Node :=
  if source.contains '\x00' then .error .nullCharacter
  else
    match tree? (Text.unifyNewlines source) with
    | some tree =>
        if reader.refuses source then .error (.refused (reader.complaint source)) else .ok tree
    | none => .error (.refused (reader.complaint source))

/-- A reader that goes into no details: whatever is well-formed can be read, and all other sources
get the same complaint. -/
def Reader.plain : Reader := ⟨fun _ => false, fun _ => "<syntax error>"⟩

/-- The text between two places of a source text. -/
def segment (source : List Char) (start stop : Position) : List Char :=
  let lines := Text.physicalLines source
  if start.line = stop.line then
    ((lines.getD (start.line - 1) []).take stop.column).drop start.column
  else
    let first := (lines.getD (start.line - 1) []).drop start.column
    let between := (lines.drop start.line).take (stop.line - start.line - 1)
    let last := (lines.getD (stop.line - 1) []).take stop.column
    first ++ between.flatten ++ last

/-- The text of a node. -/
def Node.text (source : List Char) (node : Node) : List Char :=
  segment source node.start node.stop

end Syntax
end CodeQuality
