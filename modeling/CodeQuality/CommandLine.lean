import CodeQuality.Answers
import CodeQuality.CommandLine.Command
import CodeQuality.Report
import CodeQuality.Setting

namespace CodeQuality
namespace CommandLine

/-!
Running the commands of the program.

A command gives the values that it prints.  Whatever goes wrong while it runs ends it
with one kind of fault, whose words are those of the cause.
-/

/-- A fault as it ends a command. -/
def ending (fault : Fault) : Fault :=
  match fault with
  | .usage kind text => .usage kind text
  | other => .usage .failed other.message

/-- The languages that are asked for. -/
def languagesOf (text : String) : List String :=
  ((Files.pieces ',' text).map Text.trimString).filter (· ≠ "")

/-- Where reports are written when no directory is given. -/
def defaultOutput : String := "./reports"

/-- Write a report into a directory, as a record and as a text. -/
def writeReport (output : String) (number : Nat) (report : Json) : Action Unit := do
  let directory ← Action.ofOutcome ((← get).files.resolve output)
  Action.changeFiles fun files => files.ensurePath directory
  let write := fun (ending : String) (content : Files.Content) =>
    let path := directory ++ ["report_" ++ toString number ++ ending]
    Action.writeFile path (Files.absoluteText path) content
  write ".json" (.document report)
  let text ← Action.ofOutcome (report.element "markdown")
  write ".md" (.bytes (Files.textBytes text.display))

/-- Analyse a repository at once, and write and save the report. -/
def analyzeNow (setting : Setting) (options : AnalysisOptions) (root : String)
    (languages : Json) : Action Json := do
  let analysis ← Action.ofOutcome (Analysis.ofRepository setting.analysis (← get).files root
    languages options.isIndexed)
  let report ← Report.generate setting.hasAdvisor setting.environment setting.now analysis.toJson
  let number ← Action.saveReport setting.now report
  let output := match options.output with
    | some text => if text = "" then defaultOutput else text
    | none => defaultOutput
  writeReport output number report
  let field := fun (key : String) => (report.get? key).getD .null
  pure (.obj [("report_id", .nat number), ("summary", field "summary"),
    ("overall_score", field "overall_score"), ("llm_enabled", .bool options.usesModel)])

/-- Let a job analyse a repository. -/
def analyzeLater (setting : Setting) (options : AnalysisOptions) (root : String)
    (languages : Json) : Action Json := do
  let name := setting.jobName (← get).jobs.length
  Action.runJob setting.analysis name
    ⟨root, languages, .bool options.isIndexed, .bool options.usesModel⟩
  pure (.obj [("job_id", .str name), ("status", .str "queued"),
    ("llm_enabled", .bool options.usesModel)])

/-- Run an analysis. -/
def runAnalysis (setting : Setting) (options : AnalysisOptions) : Action Json := do
  let root ← Action.ofOutcome ((← get).files.resolve options.path)
  match languagesOf options.languages with
  | [] => throw (.usage .failed "No valid languages specified for analysis.")
  | languages =>
      Action.openArchive
      let _ ← Action.ofOutcome (LanguageModel.Config.load setting.environment)
      let run := if options.isQueued then analyzeLater else analyzeNow
      run setting options (Files.absoluteText root) (.texts languages)

/-- Answer a question about a report. -/
def answerQuestion (setting : Setting) (number : Int) (question : String) : Action Json := do
  let report ← Action.getReport (.int number)
  if report.isTruthy then
    Answers.ask setting.hasAdvisor setting.environment report (.str question)
  else throw (.usage .failed ("No report found with ID " ++ toString number))

/-- Run a command.  It gives the values that it prints. -/
def Command.run (setting : Setting) (command : Command) : Action (List Json) := do
  let printed := match command with
    | .help => pure []
    | .analyze options => do pure [← runAnalysis setting options]
    | .ask number question => do
        pure [.obj [("answer", ← answerQuestion setting number question)]]
  match ← Action.outcome printed with
  | .ok values => pure values
  | .error fault => throw (ending fault)

/-- Read a command line and run its command. -/
def run (setting : Setting) (words : List String) : Action (List Json) := do
  let command ← Action.ofOutcome (Command.ofWords (← get).files words)
  command.run setting

/-- The exit code of a command line, if its outcome has one. -/
def exitCode? : Outcome (List Json) → Option Nat
  | .ok _ => some 0
  | .error (.usage .failed _) => some 1
  | .error (.usage _ _) => some 2
  | .error _ => none

end CommandLine
end CodeQuality
