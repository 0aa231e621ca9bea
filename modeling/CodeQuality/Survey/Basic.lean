import CodeQuality.Finding

namespace CodeQuality
namespace Survey

/-!
What a survey of a repository gives.

A survey goes through the files of one language.  It reports on each file and lists
what it found, in the order in which it found it.
-/

/-- Directories that hold nothing of the repository's own. -/
def ignoredDirectories : List String := ["venv", ".venv", "env", "node_modules", ".git"]

/-- Whether a directory is looked into. -/
def isKept (name : String) : Bool := !ignoredDirectories.contains name

/-- A function found by reading the syntax of a file. -/
structure FunctionEntry where
  name : String
  line : Nat
  parameterCount : Nat
  decorators : List String
  complexity : Nat
deriving DecidableEq

/-- The record of a function. -/
def FunctionEntry.toJson (entry : FunctionEntry) : Json :=
  .obj [("name", .str entry.name), ("lineno", .nat entry.line),
    ("arg_count", .nat entry.parameterCount), ("decorators", .texts entry.decorators),
    ("cc", .nat entry.complexity)]

/-- Something with a name on a line. -/
structure NamedLine where
  name : String
  line : Nat
deriving DecidableEq

/-- The record of a name on a line. -/
def NamedLine.toJson (entry : NamedLine) : Json :=
  .obj [("name", .str entry.name), ("lineno", .nat entry.line)]

/-- A construct that is suspicious wherever it stands. -/
structure Suspicion where
  kind : String
  line : Nat
  snippet : String
deriving DecidableEq

/-- The record of a suspicious construct. -/
def Suspicion.toJson (suspicion : Suspicion) : Json :=
  .obj [("type", .str suspicion.kind), ("lineno", .nat suspicion.line),
    ("snippet", .str suspicion.snippet)]

/-- A warning of a file report, with its score once the whole repository has been scored. -/
structure Warning where
  finding : Finding
  score : Option Int
deriving DecidableEq

/-- The record of a warning. -/
def Warning.toJson (warning : Warning) : Json :=
  .obj (warning.finding.members ++ (warning.score.map fun score => ("score", .int score)).toList)

/-- What a survey says of one file. -/
inductive FileReport where
  | python (functions : List FunctionEntry) (classes : List NamedLine) (todos : List Todo)
      (warnings : List Warning) (digests : List String)
  | script (functions : List NamedLine) (todos : List Todo) (suspicions : List Suspicion)
      (digests : List String)

namespace FileReport

/-- The record of a file report. -/
def toJson : FileReport → Json
  | .python functions classes todos warnings digests =>
      .obj [("functions", .arr (functions.map (·.toJson))),
        ("classes", .arr (classes.map (·.toJson))), ("todos", .arr (todos.map (·.toJson))),
        ("security_warnings", .arr (warnings.map (·.toJson))),
        ("duplication_hashes", .texts digests)]
  | .script functions todos suspicions digests =>
      .obj [("functions", .arr (functions.map (·.toJson))), ("todos", .arr (todos.map (·.toJson))),
        ("security_warnings", .arr (suspicions.map (·.toJson))),
        ("duplication_hashes", .texts digests)]

/-- The digests of the function bodies of a file. -/
def digests : FileReport → List String
  | .python _ _ _ _ digests => digests
  | .script _ _ _ digests => digests

end FileReport

end Survey

/-- A survey: a report for each file, the findings, and a summary. -/
structure Survey where
  language : String
  files : List (String × Survey.FileReport)
  findings : List Finding
  summary : String

namespace Survey

/-- The record of reports by file. -/
def filesJson (files : List (String × FileReport)) : Json :=
  .obj (files.map fun (path, report) => (path, report.toJson))

/-- The record of a survey. -/
def toJson (survey : Survey) : Json :=
  .obj [("language", .str survey.language), ("files", filesJson survey.files),
    ("issues", .arr (survey.findings.map (·.toJson))), ("summary", .str survey.summary)]

/-- The number of findings of a category. -/
def countOf (category : Category) (findings : List Finding) : Nat :=
  findings.countP fun finding => finding.category = category

end Survey
end CodeQuality
