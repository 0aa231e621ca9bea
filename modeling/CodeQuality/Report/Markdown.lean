import CodeQuality.Json.Display
import CodeQuality.Json.Order

namespace CodeQuality
namespace Report

/-!
The text of a report in Markdown: its score, its five highest issues as a table, and
its recommendations.
-/

/-- How many issues are shown. -/
def shownIssues : Nat := 5

/-- Where an issue stands. -/
def location (issue : Json) : String :=
  let file := (issue.get? "file").getD .null
  if file.isTruthy then file.display ++ ":" ++ ((issue.get? "lineno").getD .null).display else "N/A"

/-- The row of an issue. -/
def row (issue : Json) : Outcome String := do
  let message ← issue.member "message" (.str "")
  let id ← issue.element "id"
  let severity ← issue.element "severity"
  pure ("| " ++ id.display ++ " | " ++ severity.display ++ " | " ++ location issue ++ " | " ++
    message.display ++ " |")

/-- The issues with the highest scores. -/
def highest (issues : List Json) : Outcome (List Json) := do
  let keyed ← issues.mapM fun issue => do pure (issue, ← issue.element "score")
  let sorted ← Sorting.descendingBy (·.2) keyed
  pure ((sorted.take shownIssues).map (·.1))

/-- The text of the record of a report. -/
def markdown (report : Json) : Outcome String := do
  let score ← report.member "overall_score" (.str "?")
  let issues ← (← report.member "issues" (.arr [])).elements
  let rows ← (← highest issues).mapM row
  let recommendations ← (← report.member "recommendations" (.arr [])).elements
  pure <| Text.joinLines <|
    ["# Code Quality Report\n", "**Overall Score:** " ++ score.display ++ "/100\n",
      "## Top Issues\n", "| ID | Severity | Location | Message |",
      "|----|----------|----------|---------|"] ++ rows ++ ["\n## Recommendations\n"] ++
      recommendations.map fun recommendation => "- " ++ recommendation.display

end Report
end CodeQuality
