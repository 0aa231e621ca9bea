import CodeQuality.Digest
import CodeQuality.Json.Display
import CodeQuality.Score

namespace CodeQuality
namespace Report

/-!
Issues of a report.

Whatever record an analysis gives for an issue, the report has the same fields for
all of them.  An issue without an identifier gets one that is made from its record.
-/

/-- An issue of a report.  Only the severity and the score are of a known kind. -/
structure Issue where
  id : Json
  category : Json
  severity : String
  score : Int
  file : Json
  line : Json
  message : Json
  suggestedFix : Json
  evidence : Json
  explanation : Option Json

/-- The record of an issue. -/
def Issue.toJson (issue : Issue) : Json :=
  .obj ([("id", issue.id), ("category", issue.category), ("severity", .str issue.severity),
    ("score", .int issue.score), ("file", issue.file), ("lineno", issue.line),
    ("message", issue.message), ("suggested_fix", issue.suggestedFix),
    ("evidence", issue.evidence)] ++
    (issue.explanation.map fun text => ("llm_explanation", text)).toList)

/-- The score that a severity stands for before issues are weighed. -/
def severityScore (severity : String) : Int :=
  match severity with
  | "critical" => 90
  | "high" => 70
  | "medium" => 40
  | "low" => 10
  | _ => 10

/-- An identifier for a record without one: a number below 65536 that depends on the record. -/
def generatedId (record : Json) : String :=
  "GEN-" ++ toString (Text.hexValue ((Digest.ofText record.display).toList.take 4))

/-- The issue that a record of an analysis describes. -/
def Issue.ofRecord (record : Json) : Outcome Issue := do
  let severity ← (← record.member "severity" (.str "low")).lowered
  let score ← record.member "score" (.int (severityScore severity))
  let field := fun (key : String) (absent : Json) => (record.get? key).getD absent
  pure
    { id := field "id" (.str (generatedId record))
      category := field "category" (.str "general")
      severity
      score := ← score.toInteger
      file := field "file" .null
      line := field "lineno" .null
      message := field "message" (.str "No description provided")
      suggestedFix := field "suggested_fix" (.str "Review and fix as appropriate")
      evidence := field "evidence" .null
      explanation := none }

/-- How many issues each file has; issues without a file do not count. -/
def fileCounts (issues : List Issue) : Outcome (List (Json × Nat)) := do
  let files ← ((issues.map (·.file)).filter Json.isTruthy).mapM Json.asKey
  pure (Json.tally files)

/-- An issue with its score among all issues. -/
def Issue.scored (counts : List (Json × Nat)) (issue : Issue) : Outcome Issue := do
  let heat := (Json.findPair? (← issue.file.asKey) counts).getD 1
  let score ← Score.ofIssue issue.toJson (.nat heat) Score.neutralWeight
  pure { issue with score }

/-- The issues that records describe, with their scores. -/
def issuesOf (records : List Json) : Outcome (List Issue) := do
  let issues ← records.mapM Issue.ofRecord
  let counts ← fileCounts issues
  issues.mapM (Issue.scored counts)

/-- The issues by score, the highest first; equal ones keep their order. -/
def byScore (issues : List Issue) : List Issue :=
  issues.mergeSort fun first second => second.score ≤ first.score

end Report
end CodeQuality
