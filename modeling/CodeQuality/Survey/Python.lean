import CodeQuality.Files.Walk
import CodeQuality.Survey.Basic
import CodeQuality.Syntax.Complexity
import CodeQuality.Syntax.Source

namespace CodeQuality
namespace Survey
namespace Python

/-!
Surveys of Python files.

Every file is read into a syntax tree.  Functions are measured, calls of dangerous
functions are reported wherever they stand, and so are notes of work left to do.  A
repository without a directory of tests lacks tests for each of its packages.
-/

open Syntax

/-- How many digits of a digest an identifier takes. -/
def markWidth : Nat := 12

/-- The complexity of a text judged by the words in it. -/
def wordComplexity (source : List Char) : Nat :=
  (["if", "for", "while", "and", "or"].map fun word => Text.occurrences word source).foldr
    (· + ·) 0 + 1

/-- What files are read with: an interpreter, and a tool that measures functions if one is
installed.  It is given the source and the function. -/
structure Tools extends Reader where
  measure? : Option (List Char → Node → Nat)

/-- The complexity of a function. -/
def Tools.complexity (tools : Tools) (source : List Char) (node : Node) : Nat :=
  match tools.measure? with
  | some measure => measure source node
  | none => wordComplexity (node.text source)

/-- Plain tools, which count the decisions of functions. -/
def Tools.plain : Tools := ⟨.plain, some fun _ node => node.complexity⟩

/-- The complexity above which a function is reported. -/
def complexityLimit : Nat := 10

/-- How much of a text is quoted as evidence. -/
def evidenceWidth : Nat := 200

/-- The beginning of a text, as evidence. -/
def excerpt (text : List Char) : String := String.ofList (text.take evidenceWidth)

/-- The code of a function without its layout and its comment lines. -/
def condensed (source : List Char) : String :=
  let lines := (Text.lines source).map Text.trim
  String.ofList (lines.filter fun line => line.head? ≠ some '#').flatten

/-! ## Dangerous calls -/

/-- How a call of a dangerous function is judged. -/
structure Danger where
  severity : Severity
  message : String
  suggestedFix : String

/-- The judgement on calls of a function, if it is a dangerous one. -/
def danger? (callee : String) : Option Danger :=
  if callee = "eval" ∨ callee = "exec" then
    some ⟨.high, "Use of dangerous function '" ++ callee ++ "'.",
      "Avoid using eval/exec; consider safer alternatives."⟩
  else if callee = "literal_eval" then
    some ⟨.medium, "literal_eval may be unsafe on untrusted input.",
      "Validate inputs before using literal_eval."⟩
  else if callee = "system" then
    some ⟨.high, "os.system call detected.",
      "Use subprocess with safe arguments instead of os.system."⟩
  else none

/-- The finding for a node, if it is a call of a dangerous function. -/
def dangerFinding? (source : List Char) (file : String) (node : Node) : Option Finding :=
  match node.kind with
  | .call callee =>
      (danger? callee).map fun danger =>
        let line := node.start.line
        let text := String.ofList (node.text source)
        { id := "PY-SEC-" ++ Finding.mark markWidth file (toString line) callee
          category := .security
          severity := danger.severity
          message := danger.message
          details := some ⟨file, some line, if text = "" then callee else text,
            danger.suggestedFix⟩ }
  | _ => none

/-- The dangerous calls of a source text, each before the calls inside it. -/
def dangers (source : List Char) (file : String) (tree : Node) : List Finding :=
  tree.depthFirst.filterMap (dangerFinding? source file)

/-! ## Files -/

/-- The functions and classes of a tree level by level, with what is reported of them. -/
def functionNodes (tree : Node) : List (Node × Signature) :=
  tree.breadthFirst.filterMap fun node =>
    match node.kind with
    | .function signature => some (node, signature)
    | _ => none

/-- The classes of a tree level by level. -/
def classes (tree : Node) : List NamedLine :=
  tree.breadthFirst.filterMap fun node =>
    match node.kind with
    | .classDefinition name => some ⟨name, node.start.line⟩
    | _ => none

/-- The entry of a function. -/
def functionEntry (tools : Tools) (source : List Char) (node : Node)
    (signature : Signature) : FunctionEntry :=
  ⟨signature.name, node.start.line, signature.parameters.length, signature.decorators,
    tools.complexity source node⟩

/-- The finding for a function that is too complex. -/
def complexityFinding (source : List Char) (file : String) (node : Node)
    (entry : FunctionEntry) : Finding :=
  { id := "PY-CPLX-" ++ Finding.mark markWidth file (toString entry.line) "complexity"
    category := .complexity
    severity := .high
    message := "Function '" ++ entry.name ++ "' has high complexity (cc=" ++
      toString entry.complexity ++ ")."
    details := some ⟨file, some entry.line, excerpt (node.text source),
      "Refactor function to reduce complexity."⟩ }

/-- The finding for a note of work left to do. -/
def todoFinding (file : String) (todo : Todo) : Finding :=
  { id := "PY-TODO-" ++ Finding.mark markWidth file (toString todo.line) "todo"
    category := .documentation
    severity := .low
    message := "TODO/FIXME comment found."
    details := some ⟨file, some todo.line, todo.text, "Resolve or remove TODO/FIXME."⟩ }

/-- The finding for a file without a syntax tree. -/
def parsingFinding (source : List Char) (file : String) (fault : SourceFault) : Finding :=
  { id := "PY-PARSE-" ++ Finding.mark markWidth file "0" "parsing"
    category := .parsing
    severity := .medium
    message := "Failed to parse Python file: " ++ fault.message
    details := some ⟨file, none, excerpt source, "Ensure valid Python syntax."⟩ }

/-- What a survey says of one file, and what it found there. -/
def surveyFile (tools : Tools) (file : String) (source : List Char) : FileReport × List Finding :=
  match tools.parse source with
  | .error fault => (.python [] [] [] [] [], [parsingFinding source file fault])
  | .ok tree =>
      let functions := (functionNodes tree).map fun (node, signature) =>
        (node, functionEntry tools source node signature)
      let complex := functions.filter fun (_, entry) => complexityLimit < entry.complexity
      let notes := todos source
      let dangerous := dangers source file tree
      (.python (functions.map (·.2)) (classes tree) notes (dangerous.map fun found => ⟨found, none⟩)
          (functions.map fun (node, _) => Digest.ofText (condensed (node.text source))),
        complex.map (fun (node, entry) => complexityFinding source file node entry) ++
          notes.map (todoFinding file) ++ dangerous)

/-! ## Repositories -/

/-- The paths below a directory that are surveyed, in order. -/
def sourcePaths (files : Files) (root : Files.Path) : List Files.Path :=
  (files.visits isKept root).flatMap fun visit =>
    (visit.files.filter (Files.endsWith ".py")).map fun name => visit.path ++ [name]

/-- The packages right below a directory. -/
def packages (files : Files) (root : Files.Path) : List String :=
  (files.list root).filter fun name =>
    files.isDir (root ++ [name]) && files.holds (root ++ [name, "__init__.py"])

/-- The finding for a package of a repository without tests. -/
def testingFinding (root : Files.Path) (name : String) : Finding :=
  let path := Files.absoluteText (root ++ [name])
  { id := "PY-TEST-" ++ Finding.mark markWidth path "0" "testing"
    category := .testing
    severity := .missing
    message := "Package '" ++ name ++ "' has no tests directory."
    details := some ⟨path, none, "Missing tests/ directory.",
      "Add a tests/ folder with unit tests."⟩ }

/-- The findings for packages without tests. -/
def testingFindings (files : Files) (root : Files.Path) : List Finding :=
  if files.holds (root ++ ["tests"]) then []
  else (packages files root).map (testingFinding root)

/-- The summary of a survey. -/
def summary (fileCount : Nat) (findings : List Finding) : String :=
  let count := fun category => toString (countOf category findings)
  "Found " ++ toString fileCount ++ " Python files, " ++ toString findings.length ++ " issues (" ++
    count .parsing ++ " parsing errors, " ++ count .complexity ++ " complexity, " ++
    count .security ++ " security, " ++ count .duplication ++ " duplications, " ++
    count .testing ++ " testing gaps)"

/-- The survey of the Python files below a resolved directory. -/
def surveyAt (tools : Tools) (files : Files) (root : Files.Path) : Outcome Survey :=
  match files.stat root with
  | .ok (.dir _) =>
      let surveyed := (sourcePaths files root).map fun path =>
        (Files.relativeText path,
          surveyFile tools (Files.relativeText path) (files.readLenient (root ++ path)))
      let findings := surveyed.flatMap (·.2.2) ++ testingFindings files root
      .ok { language := "python"
            files := surveyed.map fun (path, report, _) => (path, report)
            findings
            summary := summary surveyed.length findings }
  | .ok _ => .error (.file .notDirectory (Files.absoluteText root))
  | .error cause => .error (.file cause (Files.absoluteText root))

end Python
end Survey
end CodeQuality
