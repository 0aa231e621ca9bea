import CodeQuality.Answers
import CodeQuality.Schema
import CodeQuality.Setting

namespace CodeQuality

/-!
The handlers of the web service: to analyse a repository, to give out a report, and to
answer a question about one.
-/

namespace WebService

/-- A text field of an accepted record. -/
def textField (record : Json) (key : String) : String :=
  match record.get? key with
  | some (.str text) => text
  | _ => ""

/-- A field of an accepted record. -/
def field (record : Json) (key : String) : Json := (record.get? key).getD .null

/-- What a request for an analysis asks for. -/
def parametersOf (request : Json) : Job.Parameters :=
  { path := textField request "path"
    languages := field request "languages"
    isIndexed := field request "index_for_rag"
    usesModel := field request "use_llm" }

/-- Analyse a repository and save the report. -/
def analyzeNow (setting : Setting) (parameters : Job.Parameters) : Action Json := do
  let analysis ← Action.ofOutcome (Analysis.ofRepository setting.analysis (← get).files
    parameters.path parameters.languages parameters.wantsIndex)
  let number ← Action.saveReport setting.analysis.now analysis.toJson
  pure (.obj [("report_id", .nat number), ("overall_score", .int analysis.overallScore),
    ("summary", .str analysis.summary)])

/-- Handle a request for an analysis.  It is done at once, or by a job. -/
def analyze (setting : Setting) (body : Json) : Action Json := do
  let request ← Action.ofOutcome (Rule.body Schema.analysisRequestFields body)
  let parameters := parametersOf request
  if (field request "run_async").isTruthy then
    let name := setting.jobName (← get).jobs.length
    Action.runJob setting.analysis name parameters
    pure (.obj [("job_id", .str name), ("status", .str "queued")])
  else
    match ← (analyzeNow setting parameters).outcome with
    | .ok record => pure record
    | .error fault => throw (.refused 500 fault.message)

/-- The refusal of a number under which there is no report. -/
def notFound (id : Json) : Fault := .refused 404 ("Report " ++ id.display ++ " not found")

/-- Give out the report with a number. -/
def report (id : Json) : Action Json := do
  match ← (Action.getReport id).outcome with
  | .ok found => if found.isTruthy then pure found else throw (notFound id)
  | .error _ => throw (notFound id)

/-- Answer a question about a report. -/
def question (setting : Setting) (body : Json) : Action Json := do
  let request ← Action.ofOutcome (Rule.body Schema.questionFields body)
  let id := field request "report_id"
  let found ← Action.getReport id
  if found.isTruthy then
    let answer ← Answers.ask setting.hasAdvisor setting.analysis.environment found
      (field request "question")
    Action.ofOutcome (Rule.body Schema.answerFields answer)
  else throw (notFound id)

end WebService
end CodeQuality
