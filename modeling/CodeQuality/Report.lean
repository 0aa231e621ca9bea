import CodeQuality.Advisor
import CodeQuality.Report.Issue
import CodeQuality.Report.Markdown

namespace CodeQuality
namespace Report

/-!
Reports.

A report is made from the record of an analysis: its issues in one form and scored
anew, recommendations for the five highest, a summary, and the whole as Markdown.
The advisor may add explanations to the three highest issues; nothing else of the
report depends on them.
-/

/-- The recommendation for an issue. -/
def recommendation (issue : Issue) : String :=
  let file := issue.file.display
  let line := issue.line.display
  if issue.category.isText "security" then
    "Address security issue in `" ++ file ++ ":" ++ line ++ "` - " ++ issue.message.display ++ "."
  else if issue.category.isText "complexity" then
    "Refactor function in `" ++ file ++ "` at line " ++ line ++ " to reduce complexity."
  else if issue.category.isText "duplication" then
    "Remove duplicated code in `" ++ file ++ "`."
  else if issue.category.isText "testing" then
    "Add missing tests in `" ++ file ++ "`."
  else "Review issue in `" ++ file ++ "`: " ++ issue.message.display ++ "."

/-- How many recommendations there are at most. -/
def recommendationCount : Nat := 5

/-- The recommendations for the highest issues. -/
def recommendations (issues : List Issue) : List String :=
  ((byScore issues).take recommendationCount).map recommendation

/-! ## Explanations -/

/-- How many issues are explained at most. -/
def explainedCount : Nat := 3

/-- The positions of the highest issues. -/
def highestPositions (issues : List Issue) : List Nat :=
  let placed := issues.mapIdx fun position issue => (position, issue.score)
  ((placed.mergeSort fun first second => second.2 ≤ first.2).take explainedCount).map (·.1)

/-- The explanation of an issue, or a plain text when the advisor fails. -/
def explanationOf (advisor : Advisor) (environment : Environment) (analysis : Json)
    (issue : Issue) : Action Json := do
  match ← (advisor.explain environment analysis issue.id).outcome with
  | .ok text => pure text
  | .error _ => pure (.str ("Top issue " ++ issue.id.display ++ ": " ++ issue.message.display))

/-- Add an explanation to the issue at a position. -/
def explainAt (advisor : Advisor) (environment : Environment) (analysis : Json)
    (issues : List Issue) (position : Nat) : Action (List Issue) := do
  match issues[position]? with
  | none => pure issues
  | some issue =>
      let text ← explanationOf advisor environment analysis issue
      pure (issues.set position { issue with explanation := some text })

/-- Add explanations to the highest issues, if there is an advisor. -/
def explained (hasAdvisor : Bool) (environment : Environment) (analysis : Json)
    (issues : List Issue) : Action (List Issue) := do
  if hasAdvisor then
    match ← (Advisor.fromEnvironment environment).outcome with
    | .error _ => pure issues
    | .ok advisor =>
        (highestPositions issues).foldlM (explainAt advisor environment analysis) issues
  else pure issues

/-! ## The whole -/

/-- The summary of a report. -/
def summary (analyzedAt : Json) (issueCount fileCount : Nat) (score : Int) : String :=
  "Analyzed at " ++ analyzedAt.display ++ ". Found " ++ toString issueCount ++
    " issues across " ++ toString fileCount ++ " files. Overall score: " ++ toString score ++ "/100."

/-- What a report is made of, apart from explanations. -/
structure Parts where
  about : Json
  summary : String
  overallScore : Int
  files : Json
  recommendations : List String

/-- The record of a report without its Markdown. -/
def Parts.members (parts : Parts) (issues : List Issue) : List (String × Json) :=
  [("meta", parts.about), ("summary", .str parts.summary),
    ("overall_score", .int parts.overallScore), ("issues", .arr (issues.map (·.toJson))),
    ("files", parts.files), ("recommendations", .texts parts.recommendations)]

/-- The score of a repository with given issues. -/
def overallScore (issues : List Issue) (files : Json) : Outcome Int := do
  Score.ofRepository (.arr (issues.map (·.toJson))) (.nat (← files.size)) Score.neutralWeight

/-- The parts of the report on an analysis with given issues. -/
def partsOf (now : Moment) (analysis : Json) (issues : List Issue) (files : Json) (score : Int) :
    Outcome Parts := do
  let about ← analysis.member "meta" (.obj [])
  let analyzedAt ← about.member "analyzed_at" (.str now.text)
  pure ⟨about, summary analyzedAt issues.length (← files.size) score, score, files,
    recommendations issues⟩

/-- The report on the record of an analysis. -/
def generate (hasAdvisor : Bool) (environment : Environment) (now : Moment) (analysis : Json) :
    Action Json := do
  let (issues, files, score) ← Action.ofOutcome do
    let records ← (← analysis.member "issues" (.arr [])).elements
    let issues ← issuesOf records
    let files ← analysis.member "files" (.obj [])
    pure (issues, files, ← overallScore issues files)
  let explainedIssues ← explained hasAdvisor environment analysis issues
  Action.ofOutcome do
    let parts ← partsOf now analysis explainedIssues files score
    let members := parts.members explainedIssues
    pure (.obj (members ++ [("markdown", .str (← markdown (.obj members)))]))

end Report
end CodeQuality
