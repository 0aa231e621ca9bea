import CodeQuality.Json.Arithmetic

namespace CodeQuality

/-- The variables that the surroundings of the program set. -/
abbrev Environment := List (String × String)

/-- The value of a variable. -/
def Environment.get? (environment : Environment) (name : String) : Option String :=
  (environment.find? fun pair => pair.1 == name).map (·.2)

namespace LanguageModel

/-!
The configuration of the language model and of the vector store.

Everything is read from the environment, and everything has a default.  The model is
used only when the environment says so; source text may leave the machine then.
-/

/-- The settings of the language model and of the vector store. -/
structure Config where
  isEnabled : Bool
  provider : String
  apiKey : Option String
  embeddingModel : String
  model : String
  vectorStore : String
  indexPath : String
  maxChunkSize : Int
  chunkOverlap : Int
  localEmbeddingPath : Option String

namespace Config

/-- The values that turn the language model on. -/
def enablingValues : List String := ["1", "true", "yes"]

/-- The configuration that an environment gives. -/
def load (environment : Environment) : Outcome Config := do
  let value := fun (name absent : String) => (environment.get? name).getD absent
  let maxChunkSize ← Json.integerOfText (value "MAX_CHUNK_SIZE" "1000")
  let chunkOverlap ← Json.integerOfText (value "CHUNK_OVERLAP" "100")
  pure
    { isEnabled := enablingValues.contains (Text.lowerString (value "USE_LLM" "false"))
      provider := Text.lowerString (value "LLM_PROVIDER" "openai")
      apiKey := environment.get? "OPENAI_API_KEY"
      embeddingModel := value "EMBEDDING_MODEL" "text-embedding-3-small"
      model := value "LLM_MODEL" "gpt-4o-mini"
      vectorStore := Text.lowerString (value "VECTOR_STORE" "disk")
      indexPath := value "FAISS_INDEX_PATH" "./data/faiss.index"
      maxChunkSize
      chunkOverlap
      localEmbeddingPath := environment.get? "LOCAL_EMBEDDING_PATH" }

/-- The record of a configuration. -/
def toJson (config : Config) : Json :=
  .obj [("use_llm", .bool config.isEnabled), ("provider", .str config.provider),
    ("openai_api_key", .ofText? config.apiKey), ("embedding_model", .str config.embeddingModel),
    ("llm_model", .str config.model), ("vector_store", .str config.vectorStore),
    ("faiss_index_path", .str config.indexPath), ("max_chunk_size", .int config.maxChunkSize),
    ("chunk_overlap", .int config.chunkOverlap),
    ("local_embedding_path", .ofText? config.localEmbeddingPath)]

end Config
end LanguageModel
end CodeQuality
