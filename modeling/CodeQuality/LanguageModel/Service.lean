import CodeQuality.Json.Display

namespace CodeQuality
namespace LanguageModel

/-!
The service behind a language model.

The service answers requests one after the other and remembers them.  What it will
answer is not known beforehand, so it is part of the surroundings of a run.
-/

/-- What the service does on a request: it gives a text, or none, or it fails. -/
inductive Reply where
  | text (content : Option String)
  | failure (message : String)

/-- A request to the service: the model, and what it is asked. -/
structure Request where
  model : String
  contents : Json

/-- The record of a request. -/
def Request.toJson (request : Request) : Json :=
  .obj [("model", .str request.model), ("contents", request.contents)]

/-- The service: whether its client is installed, what it is going to reply, and what it has been
asked so far. -/
structure Service where
  isInstalled : Bool
  replies : List Reply
  requests : List Request

end LanguageModel
end CodeQuality
