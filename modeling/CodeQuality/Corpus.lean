import CodeQuality.Files.Walk
import CodeQuality.LanguageModel.Config

namespace CodeQuality

/-!
The documents of a repository for retrieval.

Every source file of a repository is to be cut into documents.  The cutter takes a
width and no other option, but it is asked for a size and an overlap, so it turns
every file down: the corpus stays empty and there is a warning for each file.
-/

/-- The documents of a repository, and the warnings about files that could not be used. -/
structure Corpus where
  documents : List Json
  warnings : List String

namespace Corpus

/-- Why the cutter turns a file down. -/
def refusal : Fault :=
  .wrongKind "chunk_text() got an unexpected keyword argument 'chunk_size'"

/-- Whether a file belongs to the corpus, by its name. -/
def isMember (name : String) : Bool := Files.endsWith ".py" name || Files.endsWith ".js" name

/-- The files of a repository that belong to the corpus. -/
def memberPaths (files : Files) (root : Files.Path) : List Files.Path :=
  (files.visits (fun _ => true) root).flatMap fun visit =>
    (visit.files.filter isMember).map fun name => root ++ visit.path ++ [name]

/-- The warning about a file. -/
def warning (path : Files.Path) : String :=
  "Warning: Failed to read " ++ Files.absoluteText path ++ ": " ++ refusal.message

/-- The corpus of the repository at a path. -/
def build (environment : Environment) (files : Files) (path : String) : Outcome Corpus := do
  let root ← files.resolve path
  if files.holds root then
    let _ ← LanguageModel.Config.load environment
    pure ⟨[], (memberPaths files root).map warning⟩
  else .error (.missingPath (Files.absoluteText root))

end Corpus
end CodeQuality
