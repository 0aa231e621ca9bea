import CodeQuality.Dashboard
import CodeQuality.PullRequest
import CodeQuality.Retrieval.Embedding

namespace CodeQuality
namespace Demonstration

/-!
Small demonstrations of single parts of the program.  Each works on the working
directory or on a sample of its own, and gives what it prints.
-/

/-- The path of the working directory. -/
def here : String := "."

/-- Symbols of the working directory: definitions, references, definitions of scripts, and the
graph of calls. -/
def symbols (reader : Syntax.Reader) (hasGrammar : Bool) (files : Files) : Outcome (List Json) := do
  let definitions := (← Symbols.pythonTable reader files here).toJson
  let references := Symbols.referencesJson (← Symbols.references definitions)
  let scripts := (← Symbols.scriptTable hasGrammar files here).toJson
  pure [definitions, references, scripts, (← Symbols.CallGraph.ofReferences references).toJson]

/-- The dependencies of the working directory. -/
def dependencies (reader : Syntax.Reader) (order : Dependencies.Order) (hasLibrary : Bool)
    (files : Files) : Outcome Json := do
  pure ((← Dependencies.ofRepository reader order files here).toJson hasLibrary)

/-- A report with two issues on a project that is not there. -/
def dashboardReport : Json :=
  let issue := fun (id category : String) (score : Int) (file : String) =>
    Json.obj [("id", .str id), ("category", .str category), ("score", .int score),
      ("file", .str file)]
  .obj [("overall_score", .int 85),
    ("issues", .arr [issue "PY-SEC-001" "security" 90 "app.py",
      issue "PY-COM-002" "complexity" 40 "utils.py"]),
    ("files", .obj [("app.py", .obj []), ("utils.py", .obj [])]),
    ("meta", .obj [("path", .str "/repo/project"), ("analyzed_at", .str "2025-09-14T10:00:00Z")])]

/-- The dashboard of a sample. -/
def dashboard (reader : Syntax.Reader) (order : Dependencies.Order) (hasLibrary : Bool)
    (files : Files) (now : Moment) : Outcome Json :=
  Dashboard.payload reader order files now hasLibrary dashboardReport

/-- The texts of the demonstration of vectors. -/
def sampleTexts : List String := ["Hello world", "CQIA embeddings test"]

/-- The vectors of sample texts, each with a label. -/
def embeddings (environment : Environment) : Action (List (String × Retrieval.Vector)) := do
  let vectors ← Retrieval.embed environment (sampleTexts.map .str)
  pure (vectors.mapIdx fun position vector =>
    ("Text " ++ toString position ++ ": vector length=" ++ toString vector.length, vector))

/-- The configuration that is loaded. -/
def configuration (environment : Environment) : Outcome (List String) := do
  let config ← LanguageModel.Config.load environment
  pure ["LLM Config Loaded:", config.toJson.display]

/-- The lines of a text that is printed. -/
def printedLines (text : String) : List String :=
  (Text.lines (text.toList ++ ['\n'])).map String.ofList

/-- What the language model answers to a first question. -/
def greeting : Action (List String) := do
  if (← get).service.isInstalled then
    let said ← Action.ask "gemini-2.5-flash" (.str "Explain how AI works in a few words")
    pure (printedLines (Json.ofText? said).display)
  else throw (.notInstalled "google")

/-- A report with two issues and a commit. -/
def pullRequestReport : Json :=
  let issue := fun (id category severity file : String) (line : Int) (message : String) =>
    Json.obj [("id", .str id), ("category", .str category), ("severity", .str severity),
      ("file", .str file), ("lineno", .int line), ("message", .str message)]
  .obj [("overall_score", .int 88),
    ("issues", .arr [issue "PY-SEC-001" "security" "high" "app.py" 10 "Use of eval()",
      issue "PY-COM-002" "complexity" "medium" "utils.py" 22 "Complex function"]),
    ("meta", .obj [("head_sha", .str "abc123")])]

/-- Post a sample report. -/
def pullRequest (environment : Environment) : PullRequest.Conversation (List String) := do
  PullRequest.postReport environment
    { repository := .str "my-org/my-repo"
      number := .int 42
      token := .ofText? (environment.get? "GITHUB_TOKEN") } pullRequestReport
  pure ["Posted report to PR successfully."]

end Demonstration
end CodeQuality
