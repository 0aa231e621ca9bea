import CodeQuality.Files.Walk
import CodeQuality.Json.Access
import CodeQuality.Json.Reader
import CodeQuality.LanguageModel.Config
import CodeQuality.Script.Suspicion
import CodeQuality.Script.Tree
import CodeQuality.Text.Normal

namespace CodeQuality
namespace Survey
namespace Script

open CodeQuality.Script

/-!
Surveys of scripts.

Functions and suspicious constructs are taken from a syntax tree if a grammar gives
one for the file, and from the text otherwise.  Functions with the same normal form
are duplicates.  A repository has tests if its package description has a test
command or if it holds test files.
-/

/-- How many digits of a digest an identifier takes. -/
def markWidth : Nat := 8

/-- The endings of script files. -/
def endings : List String := [".js", ".jsx", ".mjs", ".ts", ".tsx"]

/-- Whether a file is a script, by its name. -/
def isScript (name : String) : Bool :=
  endings.contains (Text.lowerString (Files.suffix name))

/-- What is known of the grammar that gives syntax trees. -/
inductive Grammar where
  /-- No grammar is installed. -/
  | absent
  /-- A grammar is installed and cannot be loaded. -/
  | unloaded
  /-- A grammar is loaded.  These are the trees that it gives for the files in order; a file
  without one could not be parsed. -/
  | loaded (trees : List (Option Node))

/-- The variable that says where the grammar is kept. -/
def Grammar.variable : String := "TS_LANG_SO"

/-- The grammar of an installed parser.  The environment has to name a path that exists, and then
the trees are those that loading the grammar from there gives, unless it fails. -/
def Grammar.load (environment : Environment) (files : Files)
    (trees : Option (List (Option Node))) : Grammar :=
  match environment.get? Grammar.variable, trees with
  | some path, some trees =>
      if path ≠ "" && files.holds (files.fromRoot path) then .loaded trees else .unloaded
  | _, _ => .unloaded

/-- The note on the grammar in the summary. -/
def Grammar.note : Grammar → String
  | .absent => "[Note: tree-sitter unavailable, using regex heuristics]"
  | .unloaded => "[Note: tree-sitter present but JS grammar not loaded]"
  | .loaded _ => "[Note: tree-sitter present]"

/-- The tree that a grammar gives for the file at a position in the order of files. -/
def Grammar.tree? (grammar : Grammar) (position : Nat) : Option Node :=
  match grammar with
  | .loaded trees => (trees.getD position none)
  | _ => none

/-- The functions and the suspicious constructs of a file. -/
def reading (source : List Char) (tree : Option Node) : List Function × List Suspicion :=
  match tree with
  | some root =>
      (root.visited.filterMap (Node.function? source),
        root.visited.filterMap (Node.suspicion? source))
  | none => (functions source, suspicions source)

/-- The finding for a note of work left to do. -/
def todoFinding (file : String) (todo : Todo) : Finding :=
  { id := "JS-DOC-" ++ Finding.mark markWidth file (toString todo.line) "todo"
    category := .documentation
    severity := .low
    message := "TODO/FIXME comment found."
    details := some ⟨file, some todo.line, todo.text, "Resolve or remove TODO/FIXME."⟩ }

/-- How bad a suspicious construct is. -/
def severityOf (kind : String) : Severity :=
  if kind = "eval" ∨ kind = "new_function" ∨ kind = "dom-xss" then .high else .medium

/-- The finding for a suspicious construct. -/
def suspicionFinding (file : String) (suspicion : Suspicion) : Finding :=
  { id := "JS-SEC-" ++ Finding.mark markWidth file (toString suspicion.line) suspicion.kind
    category := .security
    severity := severityOf suspicion.kind
    message := "Suspicious construct '" ++ suspicion.kind ++ "' detected."
    details := some ⟨file, some suspicion.line, suspicion.snippet,
      "Avoid dynamic code execution and unsafe DOM sinks; sanitize inputs and use safe APIs."⟩ }

/-- The digest of a function, unless nothing is left of its normal form. -/
def bodyDigest? (function : Function) : Option String :=
  let normal := Text.scriptForm function.body
  if normal.isEmpty then none else some (Digest.ofText (String.ofList normal))

/-- What a survey says of one file, and what it found there. -/
def surveyFile (file : String) (source : List Char) (tree : Option Node) :
    FileReport × List Finding :=
  let notes := todos source
  let (functions, suspicious) := reading source tree
  (.script (functions.map fun function => ⟨function.name, function.line⟩) notes suspicious
      (functions.filterMap bodyDigest?),
    notes.map (todoFinding file) ++ suspicious.map (suspicionFinding file))

/-! ## Duplicates -/

/-- Add a place to the places of a digest, which come in order of first occurrence. -/
def addPlace (digest file : String) :
    List (String × List String) → List (String × List String)
  | [] => [(digest, [file])]
  | (own, places) :: rest =>
      if own = digest then (own, places ++ [file]) :: rest
      else (own, places) :: addPlace digest file rest

/-- The places of every digest, with repetitions. -/
def placesByDigest (reports : List (String × FileReport)) : List (String × List String) :=
  (reports.flatMap fun (file, report) => report.digests.map fun digest => (digest, file)).foldl
    (fun places (digest, file) => addPlace digest file places) []

/-- The finding for a function that stands in several places. -/
def duplicationFinding (places : List String) : Finding :=
  let file := places.headD ""
  { id := "JS-DUP-" ++ Finding.mark markWidth file "0" "duplication"
    category := .duplication
    severity := .medium
    message := "Code duplication detected across " ++ toString places.length ++ " files."
    details := some ⟨file, none, (Json.texts places).render,
      "Refactor duplicated code into shared modules or functions."⟩ }

/-- The findings for duplicates. -/
def duplicationFindings (reports : List (String × FileReport)) : List Finding :=
  ((placesByDigest reports).filter fun entry => 1 < entry.2.length).map fun entry =>
    duplicationFinding entry.2

/-! ## Tests -/

/-- Whether a package description has a test command. -/
def hasTestCommand (description : List Char) : Bool :=
  match Json.parse description with
  | .error _ => false
  | .ok package =>
      match package.member "scripts" .null with
      | .error _ => false
      | .ok scripts =>
          let present := if scripts.isTruthy then scripts else .obj []
          match present.holdsText "test" with
          | .ok found => found
          | .error _ => false

/-- The endings of test files. -/
def testEndings : List String := [".test.js", ".spec.js", ".test.ts", ".spec.ts"]

/-- Whether a repository has tests. -/
def hasTests (files : Files) (root : Files.Path) : Bool :=
  let description := root ++ ["package.json"]
  (files.holds description && hasTestCommand (files.readLenient description)) ||
    (files.visits (fun _ => true) root).any fun visit =>
      visit.folders.contains "__tests__" ||
        visit.files.any fun name => testEndings.any fun ending => Files.endsWith ending name

/-- The finding for a repository without tests. -/
def testingFinding (root : Files.Path) : Finding :=
  let path := Files.absoluteText root
  { id := "JS-TEST-" ++ Finding.mark markWidth path "0" "testing"
    category := .testing
    severity := .missing
    message := "No tests detected (no package.json test script or test files)."
    details := some ⟨path, none, "No tests found",
      "Add unit tests and a test script to package.json."⟩ }

/-! ## Repositories -/

/-- The paths below a directory that are surveyed, in order. -/
def sourcePaths (files : Files) (root : Files.Path) : List Files.Path :=
  (files.visits isKept root).flatMap fun visit =>
    (visit.files.filter isScript).map fun name => visit.path ++ [name]

/-- The summary of a survey. -/
def summary (grammar : Grammar) (fileCount : Nat) (findings : List Finding) : String :=
  "Found " ++ toString fileCount ++ " JS/TS files, " ++ toString findings.length ++ " issues, " ++
    grammar.note

/-- The survey of the scripts below a resolved directory. -/
def surveyAt (grammar : Grammar) (files : Files) (root : Files.Path) : Survey :=
  let surveyed := (sourcePaths files root).mapIdx fun position path =>
    (Files.relativeText path,
      surveyFile (Files.relativeText path) (files.readLenient (root ++ path))
        (grammar.tree? position))
  let reports := surveyed.map fun (path, report, _) => (path, report)
  let findings := surveyed.flatMap (·.2.2) ++ duplicationFindings reports ++
    if hasTests files root then [] else [testingFinding root]
  { language := "javascript"
    files := reports
    findings
    summary := summary grammar surveyed.length findings }

end Script
end Survey
end CodeQuality
