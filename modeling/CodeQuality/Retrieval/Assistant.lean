import CodeQuality.Advisor

namespace CodeQuality
namespace Retrieval

/-!
An assistant with an index of its own.

It holds documents and their index, which it reads from its path when it is made.
To index documents or to answer questions it would need an advisor that embeds texts,
and advisors do not, so both always fail.
-/

/-- An assistant: its configuration, where its index is kept, the index once there is one, and
its documents. -/
structure Assistant where
  config : LanguageModel.Config
  indexPath : String
  index : Option Index
  documents : Json

namespace Assistant

/-- Where the documents of an index are kept. -/
def documentsPath (indexPath : String) : String := indexPath ++ ".docs.pkl"

/-- The documents in a file. -/
def readDocuments (files : Files) (path : String) : Outcome Json := do
  match ← files.open? (files.fromRoot path) path with
  | .document value => pure value
  | _ => .error .malformedJson

/-- Make an assistant.  An index at its path is read, with its documents. -/
def new (environment : Environment) (path : Option String) : Action Assistant := do
  let config ← Action.ofOutcome (LanguageModel.Config.load environment)
  let indexPath := match path with
    | some given => if given = "" then config.indexPath else given
    | none => config.indexPath
  let files := (← get).files
  if files.holdsText indexPath then
    let index ← Action.ofOutcome (readIndex files indexPath)
    let documents ← Action.ofOutcome (readDocuments files (documentsPath indexPath))
    pure ⟨config, indexPath, some index, documents⟩
  else pure ⟨config, indexPath, none, .arr []⟩

/-- The fault of asking an advisor to embed a text. -/
def cannotEmbed : Fault := .noAttribute "'AgentController' object has no attribute 'embed_text'"

/-- Hold documents that are to be indexed.  They are held also if that fails. -/
def hold (assistant : Assistant) (documents : Json) : Assistant := { assistant with documents }

/-- Index the documents that are held. -/
def build (assistant : Assistant) (environment : Environment) : Action Unit := do
  let _ ← Advisor.new environment assistant.config
  match ← Action.ofOutcome assistant.documents.elements with
  | [] => throw (.badValue "No embeddings generated. Check documents or Gemini API.")
  | _ => throw cannotEmbed

/-- Find documents for a question.  An answer starts in the same way. -/
def query (assistant : Assistant) (environment : Environment) : Action (List Json) := do
  if assistant.index.isNone then throw (.badValue "RAG index not built or loaded.")
  else
    let _ ← Advisor.new environment assistant.config
    throw cannotEmbed

end Assistant
end Retrieval
end CodeQuality
