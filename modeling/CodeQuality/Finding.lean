import CodeQuality.Digest
import CodeQuality.Json.Display
import CodeQuality.Text.Line
import CodeQuality.Text.Blank
import CodeQuality.Text.Search

namespace CodeQuality

/-!
Findings.

A finding says what is wrong, how bad it is and where.  Its identifier is made from
where it stands and from what was looked for, so the same code gives the same
identifiers in every run.
-/

/-- What a finding is about. -/
inductive Category where
  | parsing
  | complexity
  | documentation
  | security
  | duplication
  | testing
  | warning
deriving DecidableEq

/-- The name of a category. -/
def Category.name : Category → String
  | .parsing => "parsing"
  | .complexity => "complexity"
  | .documentation => "documentation"
  | .security => "security"
  | .duplication => "duplication"
  | .testing => "testing"
  | .warning => "warning"

/-- How bad a finding is. -/
inductive Severity where
  | high
  | medium
  | low
  | missing
deriving DecidableEq

/-- The name of a severity. -/
def Severity.name : Severity → String
  | .high => "high"
  | .medium => "medium"
  | .low => "low"
  | .missing => "missing"

/-- Where a finding stands, what shows it and what to do. -/
structure Details where
  file : String
  line : Option Nat
  evidence : String
  suggestedFix : String
deriving DecidableEq

/-- A finding.  A warning about the request itself has no details. -/
structure Finding where
  id : String
  category : Category
  severity : Severity
  message : String
  details : Option Details
deriving DecidableEq

namespace Finding

/-- The members of the record of a finding. -/
def members (finding : Finding) : List (String × Json) :=
  match finding.details with
  | some details =>
      [("id", .str finding.id), ("category", .str finding.category.name),
        ("severity", .str finding.severity.name), ("file", .str details.file),
        ("lineno", .ofNat? details.line), ("message", .str finding.message),
        ("evidence", .str details.evidence), ("suggested_fix", .str details.suggestedFix)]
  | none =>
      [("id", .str finding.id), ("category", .str finding.category.name),
        ("message", .str finding.message), ("severity", .str finding.severity.name)]

/-- The record of a finding. -/
def toJson (finding : Finding) : Json := .obj finding.members

/-- The file of a finding, if it has one. -/
def file? (finding : Finding) : Option String := finding.details.map (·.file)

/-- The distinguishing part of an identifier: digits of the digest of where something stands and
what was looked for. -/
def mark (width : Nat) (file : String) (line : String) (topic : String) : String :=
  Digest.short width (file ++ ":" ++ line ++ ":" ++ topic)

end Finding

/-- A note that something is left to do, with its line. -/
structure Todo where
  line : Nat
  text : String
deriving DecidableEq

/-- The record of such a note. -/
def Todo.toJson (todo : Todo) : Json :=
  .obj [("lineno", .nat todo.line), ("text", .str todo.text)]

/-- Whether a line holds one of the words that mark work left to do. -/
def isTodoLine (line : List Char) : Bool :=
  Text.holdsWord "TODO" line || Text.holdsWord "FIXME" line

/-- The notes in lines that are numbered from a given number on. -/
def todosFrom (number : Nat) : List (List Char) → List Todo
  | [] => []
  | line :: rest =>
      if isTodoLine line then
        ⟨number, String.ofList (Text.trim line)⟩ :: todosFrom (number + 1) rest
      else todosFrom (number + 1) rest

/-- The notes in a source text. -/
def todos (source : List Char) : List Todo := todosFrom 1 (Text.lines source)

end CodeQuality
