import CodeQuality.Calendar
import CodeQuality.Dependencies
import CodeQuality.Json.Order

namespace CodeQuality
namespace Dashboard

/-!
The data of a dashboard.

A dashboard shows the header of a report, how its issues fall into categories, which
files have the highest scores, the last seven days, and the dependencies of the
repository.
-/

/-- How many days the trend covers. -/
def trendDays : Nat := 7

/-- How many files are shown. -/
def fileCount : Nat := 10

/-- The categories and the best score of each file, in order of first arrival. -/
structure Counts where
  categories : List (Json × Nat)
  scores : List (Json × Json)

/-- Add the record of an issue. -/
def Counts.add (counts : Counts) (issue : Json) : Outcome Counts := do
  let category ← (← issue.member "category" (.str "general")).asKey
  let categories := Json.updatePair category (fun count => count.getD 0 + 1) counts.categories
  let file ← issue.member "file" .null
  if file.isTruthy then
    let key ← file.asKey
    let best := (Json.findPair? key counts.scores).getD (.int 0)
    let score ← Json.larger best (← issue.member "score" (.int 0))
    pure ⟨categories, Json.updatePair key (fun _ => score) counts.scores⟩
  else pure ⟨categories, counts.scores⟩

/-- The trend of the last days, which all have the score of the report. -/
def trend (today : Date) (score : Json) : Outcome (List Json) := do
  let days ← (List.range trendDays).mapM fun days => today.earlier days
  pure (days.map fun day => Json.obj [("date", .str day.text), ("score", score)]).reverse

/-- A path as a value of a report gives it. -/
def pathText (value : Json) : Outcome String :=
  match value with
  | .str path => .ok path
  | other => .error (.wrongKind
      ("expected str, bytes or os.PathLike object, not " ++ other.kindName))

/-- The data of a dashboard for the record of a report. -/
def payload (reader : Syntax.Reader) (order : Dependencies.Order) (files : Files) (now : Moment)
    (hasLibrary : Bool) (report : Json) : Outcome Json := do
  let score ← report.member "overall_score" (.int 0)
  let about ← report.member "meta" (.obj [])
  let path ← about.member "path" (.str "?")
  let analyzedAt ← about.member "analyzed_at" (.str now.text)
  let issues ← (← report.member "issues" (.arr [])).elements
  let counts ← issues.foldlM Counts.add ⟨[], []⟩
  let hottest ← Sorting.descendingBy (fun entry : Json × Json => entry.2) counts.scores
  let days ← trend now.date score
  let graph ← Dependencies.ofRepository reader order files (← pathText path)
  pure <| .obj
    [("header", .obj [("overall_score", score), ("repo_path", path), ("analyzed_at", analyzedAt)]),
      ("charts", .obj
        [("issues_by_category", .arr (counts.categories.map fun (category, count) =>
            .obj [("category", category), ("count", .nat count)])),
          ("top_hotspots", .arr ((hottest.take fileCount).map fun (file, score) =>
            .obj [("id", file), ("score", score)])),
          ("recent_trend", .arr days)]),
      ("dep_graph", graph.toJson hasLibrary)]

end Dashboard
end CodeQuality
