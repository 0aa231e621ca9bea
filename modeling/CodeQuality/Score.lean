import CodeQuality.Json.Arithmetic

namespace CodeQuality
namespace Score

/-!
Scores of issues and of repositories.

An issue is scored by its severity, by how many issues its file has and by how often
it occurs.  A repository starts at a hundred and loses the average score of its
issues in proportion to its size, of which at most fifty files count.  All scores
lie between nought and a hundred.
-/

/-- Bring a number into the range of scores. -/
def clamp (n : Int) : Int := max 0 (min 100 n)

/-- The score that a severity stands for by itself. -/
def ofSeverity (severity : String) : Int :=
  match Text.lowerString severity with
  | "critical" => 95
  | "high" => 75
  | "medium" => 40
  | "low" => 10
  | _ => 40

/-- The weight of an issue that has no history, and of a repository without a trend. -/
def neutralWeight : Json := .float ⟨0x3ff0000000000000⟩

/-- How many issues of a file count at most. -/
def maxHotness : Nat := 3

/-- The score of an issue record, given how many issues its file has and a weight. -/
def ofIssue (issue hotness weight : Json) : Outcome Int := do
  let severity ← issue.member "severity" (.str "medium")
  let base ← match severity with
    | .str text => pure (ofSeverity text)
    | other => .error (other.lacks "lower")
  let occurrences ← issue.member "occurrences" (.int 1)
  let penalty ← Json.product (.int 10) (← Json.minus occurrences (.int 1))
  let heat ← Json.smaller (.nat maxHotness) hotness
  let raised ← Json.plus (.int base) (← Json.product heat (.int 5))
  let score ← Json.minus raised penalty
  pure (clamp (← Json.toInteger (← Json.product score weight)))

/-- How many files count at most. -/
def maxFiles : Nat := 50

/-- The sum of the scores of issue records, of which one without a score counts forty. -/
def total (issues : List Json) : Outcome Json :=
  issues.foldlM (fun sum issue => do
    Json.plus sum (← issue.member "score" (.int 40))) (.int 0)

/-- The score of a repository with given issue records and a given size. -/
def ofRepository (issues size trend : Json) : Outcome Int := do
  if !issues.isTruthy then pure 100
  else if ← size.isAtMost (.int 0) then pure 100
  else
    let sum ← total (← issues.elements)
    let average ← Json.quotient sum (← issues.size)
    let share ← Json.quotient average 100
    let penalty ← Json.product share (← Json.smaller size (.nat maxFiles))
    let overall ← Json.minus (.int 100) (← Json.product penalty trend)
    pure (clamp (← Json.toInteger overall))

/-- Issue records with their scores; the heat of a file is looked up in a record. -/
def enrich (issues hotness : Json) : Outcome Json := do
  let scored ← (← issues.elements).mapM fun issue => do
    let file ← issue.member "file" (.str "")
    let heat ← match hotness with
      | .obj members => do
          match ← file.asKey with
          | .str name => pure ((Json.lookup? name members).getD (.int 1))
          | _ => pure (.int 1)
      | other => .error (other.lacks "get")
    pure (issue.set "score" (.int (← ofIssue issue heat neutralWeight)))
  pure (.arr scored)

end Score
end CodeQuality
