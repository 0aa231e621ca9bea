import CodeQuality.CommandLine.Parser
import CodeQuality.Files.Directory
import CodeQuality.Json.Arithmetic
import CodeQuality.Text.Word

namespace CodeQuality
namespace CommandLine

/-!
The commands of the program.

There are two commands: one analyses a repository, the other answers a question about
a report.  The words of a command line are read into a command, and everything that
is wrong with them is found before the command runs.
-/

/-- The options of an analysis. -/
structure AnalysisOptions where
  path : String
  languages : String
  output : Option String
  isQueued : Bool
  usesModel : Bool
  isIndexed : Bool

/-- A command. -/
inductive Command where
  | help
  | analyze (options : AnalysisOptions)
  | ask (report : Int) (question : String)

/-- What the help says. -/
def overview : String :=
  "Code Quality Intelligence Agent CLI.\n\nOptions:\n  --help  Show this message and exit.\n\n" ++
    "Commands:\n" ++
    "  analyze  Analyze a code repository at PATH and generate a quality report.\n" ++
    "  qa       Ask a natural language QUESTION about a report with REPORT_ID."

/-- The options that an analysis knows. -/
def analysisRules : List OptionRule :=
  [⟨["--languages"], "languages", true⟩, ⟨["--out"], "out", true⟩,
    ⟨["--run-async"], "run_async", false⟩, ⟨["--use-llm", "-l"], "use_llm", false⟩,
    ⟨["--index-for-rag", "-r"], "index_for_rag", false⟩, helpRule]

/-- The languages that are analysed when none are given. -/
def defaultLanguages : String := "py,js"

/-- The fault of a value that does not fit. -/
def invalidValue (hint reason : String) : Fault :=
  .usage .badParameter ("Invalid value for '" ++ hint ++ "': " ++ reason)

/-- The fault of an argument that is missing. -/
def missingArgument (hint : String) : Fault :=
  .usage .missingParameter ("Missing argument '" ++ hint ++ "'.")

/-- The fault of arguments that are too many. -/
def extraArguments (words : List String) : Fault :=
  let noun := if words.length = 1 then "argument" else "arguments"
  .usage .misused ("Got unexpected extra " ++ noun ++ " (" ++ " ".intercalate words ++ ")")

/-- What the text of a path leads to, if the text can be that of a path. -/
def lookUp (files : Files) (text : String) : Outcome (Except FileCause Files.Entry) :=
  if text.toList.contains (Char.ofNat 0) then .error (.badValue "embedded null byte")
  else .ok (files.statText text)

/-- Accept a path that leads to something. -/
def existingPath (files : Files) (text : String) : Outcome Unit := do
  match ← lookUp files text with
  | .ok _ => pure ()
  | .error _ => .error (invalidValue "PATH" ("Path " ++ Text.quoted text ++ " does not exist."))

/-- Accept a path that does not lead to a file. -/
def outputDirectory (files : Files) (text : String) : Outcome Unit := do
  match ← lookUp files text with
  | .ok (.file _) =>
      .error (invalidValue "--out" ("Directory " ++ Text.quoted text ++ " is a file."))
  | _ => pure ()

/-- Read the words behind the name of an analysis. -/
def readAnalysis (files : Files) (words : List String) : Outcome Command := do
  let given ← read analysisRules true words
  if given.has "help" then pure .help
  else
    let output := given.value? "out"
    if let some text := output then outputDirectory files text
    match given.arguments with
    | [] => .error (missingArgument "PATH")
    | path :: extra =>
        existingPath files path
        if extra ≠ [] then .error (extraArguments extra)
        else
          pure (.analyze
            { path, output
              languages := (given.value? "languages").getD defaultLanguages
              isQueued := given.has "run_async"
              usesModel := given.has "use_llm"
              isIndexed := given.has "index_for_rag" })

/-- The number that a word stands for. -/
def numberOf (word : String) : Outcome Int :=
  match Json.integerOfText word with
  | .ok n => .ok n
  | .error _ =>
      .error (invalidValue "REPORT_ID" (Text.quoted word ++ " is not a valid integer."))

/-- Read the words behind the name of a question. -/
def readQuestion (words : List String) : Outcome Command := do
  let given ← read [helpRule] true words
  if given.has "help" then pure .help
  else
    match given.arguments with
    | [] => .error (missingArgument "REPORT_ID")
    | number :: rest =>
        let report ← numberOf number
        match rest with
        | [] => .error (missingArgument "QUESTION")
        | [question] => pure (.ask report question)
        | _ :: extra => .error (extraArguments extra)

/-- Whether a word looks like an option although it is none: it begins with a sign. -/
def beginsWithSign (word : String) : Bool :=
  match word.toList with
  | [] => false
  | c :: _ => c == '_' || !Text.isWord c

/-- Read a command line. -/
def Command.ofWords (files : Files) (words : List String) : Outcome Command := do
  if words = [] then pure .help
  else
    let given ← read [helpRule] false words
    if given.has "help" then pure .help
    else
      match given.arguments with
      | [] => .error (.usage .misused "Missing command.")
      | "analyze" :: rest => readAnalysis files rest
      | "qa" :: rest => readQuestion rest
      | name :: _ =>
          if beginsWithSign name then pure .help
          else .error (.usage .misused ("No such command " ++ Text.quoted name ++ "."))

end CommandLine
end CodeQuality
