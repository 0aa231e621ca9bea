import CodeQuality.Calendar
import CodeQuality.Corpus
import CodeQuality.Score
import CodeQuality.Survey.Python
import CodeQuality.Survey.Script

namespace CodeQuality

/-!
The analysis of a repository.

The surveys of all requested languages are put together: of several findings with
one identifier the last stays, in the place of the first.  Each finding is scored by
its severity and by how many findings its file has, and the repository by all of
them.
-/

/-- A language as it is asked for. -/
inductive RequestedLanguage where
  | python
  | script
  | unknown (text : String)
deriving DecidableEq

/-- The language that a value of a request stands for. -/
def RequestedLanguage.ofJson (value : Json) : RequestedLanguage :=
  if value.isText "py" then .python
  else if value.isText "js" then .script
  else .unknown value.display

/-- The languages of a request; both known ones when none are given. -/
def RequestedLanguage.list (languages : Json) : Outcome (List RequestedLanguage) :=
  match languages with
  | .null => .ok [.python, .script]
  | other => do pure ((← other.elements).map RequestedLanguage.ofJson)

/-- A finding with its score. -/
structure ScoredFinding where
  finding : Finding
  score : Int

/-- The record of a scored finding. -/
def ScoredFinding.toJson (scored : ScoredFinding) : Json :=
  .obj (scored.finding.members ++ [("score", .int scored.score)])

/-- The analysis of a repository.  The indexing note says why the repository could not be indexed
for retrieval, if that was asked for. -/
structure Analysis where
  path : String
  analyzedAt : String
  indexingNote : Option String
  summary : String
  overallScore : Int
  languages : List String
  issues : List ScoredFinding
  files : List (String × Survey.FileReport)

namespace Analysis

/-- The record of an analysis. -/
def toJson (analysis : Analysis) : Json :=
  let indexing := match analysis.indexingNote with
    | some note => [("rag_indexed", .bool false), ("rag_warning", .str note)]
    | none => []
  .obj [("meta", .obj ([("path", .str analysis.path), ("analyzed_at", .str analysis.analyzedAt)] ++
      indexing)),
    ("summary", .str analysis.summary), ("overall_score", .int analysis.overallScore),
    ("languages", .texts analysis.languages),
    ("issues", .arr (analysis.issues.map (·.toJson))),
    ("files", Survey.filesJson analysis.files)]

/-! ## Putting surveys together -/

/-- What the surveys of the languages seen so far have given. -/
structure Collected where
  findings : List Finding
  files : List (String × Survey.FileReport)
  languages : List String

/-- Put the report of a file under its path: in place when the path is there, and at the end
otherwise. -/
def putReport (path : String) (report : Survey.FileReport) :
    List (String × Survey.FileReport) → List (String × Survey.FileReport)
  | [] => [(path, report)]
  | (own, old) :: rest =>
      if own = path then (own, report) :: rest else (own, old) :: putReport path report rest

/-- Add a survey. -/
def Collected.add (collected : Collected) (code : String) (survey : Survey) : Collected :=
  { findings := collected.findings ++ survey.findings
    files := survey.files.foldl (fun files (path, report) => putReport path report files)
      collected.files
    languages := collected.languages ++ [code] }

/-- The finding for a language that is not known. -/
def languageFinding (text : String) : Finding :=
  { id := "unknown-" ++ text
    category := .warning
    severity := .low
    message := "Language '" ++ text ++ "' not supported."
    details := none }

/-- How files are read. -/
structure Reading where
  tools : Survey.Python.Tools
  grammar : Survey.Script.Grammar

/-- Survey the languages of a request one after the other. -/
def collect (reading : Reading) (files : Files) (root : Files.Path) (collected : Collected) :
    List RequestedLanguage → Outcome Collected
  | [] => .ok collected
  | .python :: rest => do
      let survey ← Survey.Python.surveyAt reading.tools files root
      collect reading files root (collected.add "py" survey) rest
  | .script :: rest =>
      collect reading files root
        (collected.add "js" (Survey.Script.surveyAt reading.grammar files root)) rest
  | .unknown text :: rest =>
      collect reading files root
        { collected with findings := collected.findings ++ [languageFinding text] } rest

/-- Put a finding among others: in place of one with its identifier, and at the end otherwise. -/
def putFinding (finding : Finding) : List Finding → List Finding
  | [] => [finding]
  | own :: rest =>
      if own.id = finding.id then finding :: rest else own :: putFinding finding rest

/-- Findings without repeated identifiers: the last one stays, in the place of the first. -/
def distinct (findings : List Finding) : List Finding :=
  findings.foldl (fun kept finding => putFinding finding kept) []

/-! ## Scores -/

/-- How many findings a file has. -/
def hotness (findings : List Finding) (file : String) : Nat :=
  findings.countP fun finding => finding.file? = some file

/-- How many findings the file of a finding has; one when it has no file. -/
def hotnessOf (findings : List Finding) (finding : Finding) : Nat :=
  match finding.file? with
  | some file => hotness findings file
  | none => 1

/-- A finding with its score among all findings. -/
def scored (findings : List Finding) (finding : Finding) : Outcome ScoredFinding := do
  let score ← Score.ofIssue finding.toJson (.nat (hotnessOf findings finding)) Score.neutralWeight
  pure ⟨finding, score⟩

/-- The score of a finding that stands among the issues. -/
def scoreOf? (issues : List ScoredFinding) (finding : Finding) : Option Int :=
  (issues.find? fun issue => issue.finding == finding).map (·.score)

/-- The warnings of a file with their scores.  Of several warnings with one identifier only the
last carries a score, and that only if it is the one that stays among the issues. -/
def scoredWarnings (issues : List ScoredFinding) : List Survey.Warning → List Survey.Warning
  | [] => []
  | warning :: rest =>
      let score := if rest.any fun other => other.finding.id == warning.finding.id then none
        else scoreOf? issues warning.finding
      { warning with score } :: scoredWarnings issues rest

/-- The report of a file with the scores of its warnings. -/
def scoredReport (issues : List ScoredFinding) : Survey.FileReport → Survey.FileReport
  | .python functions classes todos warnings digests =>
      .python functions classes todos (scoredWarnings issues warnings) digests
  | other => other

/-! ## The whole -/

/-- The number of findings of a category and a severity. -/
def countOf (category : Category) (severity : Severity) (findings : List Finding) : Nat :=
  findings.countP fun finding => finding.category = category ∧ finding.severity = severity

/-- The summary of an analysis. -/
def summaryOf (findings : List Finding) : String :=
  let high := countOf .security .high findings
  let medium := countOf .security .medium findings
  "Security issues: " ++ toString (high + medium) ++ " (high: " ++ toString high ++ ", medium: " ++
    toString medium ++ "), Complexity issues: " ++
    toString (countOf .complexity .high findings) ++ ", Duplications: " ++
    toString (Survey.countOf .duplication findings) ++ ", Missing tests: " ++
    toString (countOf .testing .missing findings)

/-- The directory that is analysed for a path: the path itself, or the directory of a file. -/
def rootOf (files : Files) (path : String) : Outcome Files.Path := do
  let resolved ← files.resolve path
  match files.stat resolved with
  | .ok (.dir _) => pure resolved
  | .ok _ => pure resolved.dropLast
  | .error _ => .error (.missingPath (Files.absoluteText resolved))

/-- Why a repository cannot be indexed for retrieval: there is no store to put it into, if
nothing goes wrong before. -/
def indexingNoteFor (hasRetriever : Bool) (environment : Environment) (files : Files)
    (root : Files.Path) : String :=
  if hasRetriever then
    match Corpus.build environment files (Files.absoluteText root) with
    | .error fault => "Indexing failed: " ++ fault.message
    | .ok _ => "Indexing failed: " ++ (Json.null.lacks "add_documents").message
  else "core.rag.retriever.index_repo not available."

/-- What an analysis needs to know besides the files. -/
structure Request where
  reading : Reading
  environment : Environment
  now : Moment
  hasRetriever : Bool

/-- The analysis of the repository at a path. -/
def ofRepository (request : Request) (files : Files) (path : String) (languages : Json)
    (isIndexed : Bool) : Outcome Analysis := do
  let root ← rootOf files path
  let requested ← RequestedLanguage.list languages
  let collected ← collect request.reading files root ⟨[], [], []⟩ requested
  let findings := distinct collected.findings
  let issues ← findings.mapM (scored findings)
  let overallScore ← Score.ofRepository (.arr (issues.map (·.toJson)))
    (.nat collected.files.length) Score.neutralWeight
  pure
    { path := Files.absoluteText root
      analyzedAt := request.now.text
      indexingNote := if isIndexed then
          some (indexingNoteFor request.hasRetriever request.environment files root)
        else none
      summary := summaryOf findings
      overallScore
      languages := collected.languages
      issues
      files := collected.files.map fun (path, report) => (path, scoredReport issues report) }

end Analysis
end CodeQuality
