import CodeQuality.World

namespace CodeQuality
namespace Retrieval

/-!
Vectors of texts.

A vector is made from the digest of a text.  With the language model turned on, it
is the digest of what the model says about the text.
-/

/-- The dimension of the vectors. -/
def dimension : Nat := 16

/-- The groups of so many digits each in a text. -/
def groups (width : Nat) : (count : Nat) → List Char → List (List Char)
  | 0, _ => []
  | count + 1, digits => digits.take width :: groups width count (digits.drop width)

/-- The vector of a text: the digits of its digest in sixteen groups, each as a fraction. -/
def ofText (text : String) : Vector :=
  (groups 4 dimension (Digest.ofText text).toList).map fun digits =>
    (Number.Binary64.ofRatio? (Text.hexValue digits) 0xffffffffffffffff).getD ⟨0⟩

/-- The vector of a value, which has to be a text. -/
def ofValue (value : Json) : Outcome Vector :=
  match value with
  | .str text => .ok (ofText text)
  | other => .error (other.lacks "encode")

/-- What the model is asked about a text. -/
def prompt (text : Json) : String :=
  "Provide a concise summary or embedding-like representation of this text:\n" ++ text.display

/-- The provider whose model can be asked. -/
def knownProvider : String := "gemini"

/-- The vector of what the model says about a text. -/
def askedVector (config : LanguageModel.Config) (text : Json) : Action Vector := do
  let reply ← (do
    let said ← Action.ask config.embeddingModel (.str (prompt text))
    Action.ofOutcome (ofValue (.ofText? said)) : Action Vector).outcome
  match reply with
  | .ok vector => pure vector
  | .error fault => throw (.runtime ("Failed to generate Gemini embeddings: " ++ fault.message))

/-- The vectors of texts. -/
def embed (environment : Environment) (texts : List Json) : Action (List Vector) := do
  let config ← Action.ofOutcome (LanguageModel.Config.load environment)
  if config.isEnabled && Text.lowerString config.provider = knownProvider &&
      (← get).service.isInstalled then
    texts.mapM (askedVector config)
  else texts.mapM fun text => Action.ofOutcome (ofValue text)

end Retrieval
end CodeQuality
