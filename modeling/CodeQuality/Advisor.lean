import CodeQuality.LanguageModel.Answer
import CodeQuality.Retrieval.Store

namespace CodeQuality

/-!
The advisor explains issues and answers questions about a report.

With the language model turned on, the advisor asks it, and gives it passages that it
retrieves for an issue.  Without the model, or when the model fails, the advisor
says what the report says.
-/

open LanguageModel Retrieval

/-- An advisor: its configuration and, if the language model is turned on, its store. -/
structure Advisor where
  config : Config
  store : Option Store

namespace Advisor

/-- An advisor for a configuration. -/
def new (environment : Environment) (config : Config) : Action Advisor := do
  if config.isEnabled then
    let store ← Store.new environment (some config.indexPath) true
    pure ⟨config, some store⟩
  else pure ⟨config, none⟩

/-- An advisor for the configuration that the environment gives. -/
def fromEnvironment (environment : Environment) : Action Advisor := do
  new environment (← Action.ofOutcome (Config.load environment))

/-- Ask the language model. -/
def call (advisor : Advisor) (prompt : Json) : Action (Option String) := do
  if !advisor.config.isEnabled then
    throw (.runtime "LLM usage is disabled in configuration.")
  else if Text.lowerString advisor.config.provider = knownProvider then
    if !(← get).service.isInstalled then throw (.notInstalled "google")
    else
      match ← (Action.ask advisor.config.model prompt).outcome with
      | .ok said => pure said
      | .error fault => throw (.runtime ("Gemini API call failed: " ++ fault.message))
  else
    throw (.runtime ("LLM provider " ++ advisor.config.provider ++ " not supported."))

/-- The record in what the language model says. -/
def callForRecord (advisor : Advisor) (prompt : String) : Action Json := do
  let said ← advisor.call (.str prompt)
  Action.ofOutcome (recordIn (.ofText? said))

/-- The first issue of a report with an identifier. -/
def findIssue? (report id : Json) : Outcome (Option Json) := do
  let issues ← (← report.member "issues" (.arr [])).elements
  search issues
where
  /-- The first record with the identifier; all records before it have to be records. -/
  search : List Json → Outcome (Option Json)
    | [] => .ok none
    | issue :: rest => do
        if Json.same (← issue.member "id" .null) id then pure (some issue) else search rest

/-- The text of a field of an issue; a field that is not there is shown as absent. -/
def shown (issue : Json) (key : String) : String :=
  ((issue.get? key).getD .null).display

/-- The passages that belong to an issue: their texts, each on lines of its own, and the files
that they come from. -/
def context (advisor : Advisor) (environment : Environment) (issue : Json) :
    Action (String × List Json) := do
  match advisor.store with
  | none => pure ("", [])
  | some store =>
      let question := shown issue "category" ++ ": " ++ shown issue "message"
      let passages ← store.retrieve environment (.str question) (.int 3)
      let pieces ← passages.mapM fun passage => Action.ofOutcome do
        let text ← match passage.text with
          | .str text => pure (text ++ "\n")
          | .arr _ => .error (.wrongKind "can only concatenate list (not \"str\") to list")
          | other => .error (Json.unsupported "+" other (.str ""))
        pure (text, ← passage.about.member "file" (.str "?"))
      pure (String.join (pieces.map (·.1)), pieces.map (·.2))

/-- What the model is asked about an issue. -/
def explanationPrompt (issue : Json) (contextText : String) : String :=
  "\nYou are a code quality assistant. Analyze the following issue and code context:\n\nIssue: " ++
    shown issue "message" ++ "\nCategory: " ++ shown issue "category" ++ "\nSeverity: " ++
    shown issue "severity" ++ "\nFile: " ++ shown issue "file" ++ " Line: " ++
    shown issue "lineno" ++ "\nCode Context:\n" ++ contextText ++
    "\n\nProvide:\n1. A concise explanation of the issue.\n" ++
    "2. Step-by-step fix plan as a numbered list.\nRespond in JSON: " ++
    "\x7b\"explanation\": \"...\", \"fix_plan\": [\"step 1\", \"step 2\"]\x7d\n"

/-- The record of an explanation. -/
def explanation (id text plan : Json) (sources : List Json) (confidence : String) : Json :=
  .obj [("issue_id", id), ("explanation", text), ("fix_plan", plan), ("sources", .arr sources),
    ("confidence", .str confidence)]

/-- The explanation of an issue without the language model. -/
def plainExplanation (id issue : Json) (sources : List Json) : Json :=
  explanation id ((issue.get? "message").getD .null)
    (.texts ["Review " ++ shown issue "file" ++ " line " ++ shown issue "lineno"]) sources "medium"

/-- Explain the issue of a report with an identifier. -/
def explain (advisor : Advisor) (environment : Environment) (report id : Json) : Action Json := do
  match ← Action.ofOutcome (findIssue? report id) with
  | none => pure (explanation id (.str "Issue not found.") (.arr []) [] "low")
  | some issue =>
      if !issue.isTruthy then pure (explanation id (.str "Issue not found.") (.arr []) [] "low")
      else
        let (contextText, sources) ← advisor.context environment issue
        if advisor.config.isEnabled then
          match ← (advisor.callForRecord (explanationPrompt issue contextText)).outcome with
          | .ok said =>
              pure (explanation id
                ((said.get? "explanation").getD ((issue.get? "message").getD .null))
                ((said.get? "fix_plan").getD (.arr [])) sources "high")
          | .error _ => pure (plainExplanation id issue sources)
        else pure (plainExplanation id issue sources)

/-- What the model is asked for a patch. -/
def patchPrompt (issue : Json) : String :=
  "\nGenerate a code patch suggestion for the following issue:\n\nIssue: " ++
    shown issue "message" ++ "\nFile: " ++ shown issue "file" ++ " Line: " ++
    shown issue "lineno" ++ "\n"

/-- The record of a suggested patch. -/
def patchRecord (id patch : Json) (confidence : String) : Json :=
  .obj [("issue_id", id), ("suggested_patch", patch), ("confidence", .str confidence)]

/-- Suggest a patch for the issue of a report with an identifier. -/
def suggestPatch (advisor : Advisor) (report id : Json) : Action Json := do
  match ← Action.ofOutcome (findIssue? report id) with
  | none => pure (patchRecord id (.str "") "low")
  | some issue =>
      if !issue.isTruthy then pure (patchRecord id (.str "") "low")
      else
        let byHand := patchRecord id
          (.str ("Manually fix " ++ shown issue "file" ++ " line " ++ shown issue "lineno")) "medium"
        if advisor.config.isEnabled then
          match ← (advisor.call (.str (patchPrompt issue))).outcome with
          | .ok said => pure (patchRecord id (.ofText? said) "high")
          | .error _ => pure byHand
        else pure byHand

/-- How many issues of a report go into a question. -/
def questionIssues : Nat := 5

/-- What the model is asked about a report. -/
def questionPrompt (summary : Json) (contextText : String) (question : Json) : String :=
  "\n    You are a code quality assistant. Answer the following question " ++
    "based on the report:\n\n    Report Summary: " ++ summary.display ++
    "\n    Issues:\n    " ++ contextText ++ "\n\n    Question: " ++ question.display ++
    "\n\n    Respond in JSON with keys: \x7b \"answer\": \"...\", \"sources\": [...], " ++
    "\"confidence\": \"low|medium|high\" \x7d\n    "

/-- The record of an answer. -/
def answerRecord (answer sources confidence : Json) : Json :=
  .obj [("answer", answer), ("sources", sources), ("confidence", confidence)]

/-- Answer a question about a report. -/
def answer (advisor : Advisor) (report question : Json) : Action Json := do
  let issues ← Action.ofOutcome do
    (← (← report.member "issues" (.arr [])).leading questionIssues).elements
  let pieces ← issues.mapM fun issue => Action.ofOutcome do
    let id ← issue.member "id" .null
    pure ("- " ++ id.display ++ ": " ++ shown issue "message" ++ " (File: " ++ shown issue "file" ++
      ")\n", ← issue.member "file" (.str "?"))
  let sources := Json.arr (pieces.map (·.2))
  let summary := (report.get? "summary").getD (.str "")
  if advisor.config.isEnabled then
    let prompt := questionPrompt summary (String.join (pieces.map (·.1))) question
    match ← (advisor.callForRecord prompt).outcome with
    | .ok said =>
        pure (answerRecord ((said.get? "answer").getD (.str "No answer generated."))
          ((said.get? "sources").getD sources) ((said.get? "confidence").getD (.str "medium")))
    | .error _ => pure (answerRecord (.str "LLM call failed.") sources (.str "medium"))
  else
    pure (answerRecord (.str ("Report summary: " ++ summary.display)) sources (.str "medium"))

end Advisor
end CodeQuality
