import CodeQuality.Files.Tree
import CodeQuality.Json.Reader

namespace CodeQuality
namespace Retrieval

/-!
The library that searches vectors.

The library keeps an index of vectors, of which the program knows the dimension and
the number.  What a search finds is part of the surroundings of a run.
-/

/-- A vector of floating-point numbers. -/
abbrev Vector := List Number.Binary64

/-- The value of a vector. -/
def vectorJson (vector : Vector) : Json := .arr (vector.map .float)

/-- An index of vectors: their dimension, and how many there are. -/
structure Index where
  dimension : Int
  total : Int
deriving DecidableEq

/-- The record of an index. -/
def Index.toJson (index : Index) : Json := .arr [.int index.dimension, .int index.total]

/-- The index that a record describes. -/
def Index.ofJson? : Json → Option Index
  | .arr [.int dimension, .int total] => some ⟨dimension, total⟩
  | _ => none

/-- What the library has been asked to do. -/
inductive Call where
  | add (vectors : List Vector)
  | search (vectors : List Vector) (count : Json)

/-- The record of a call. -/
def Call.toJson : Call → Json
  | .add vectors => .arr [.str "add", .arr (vectors.map vectorJson)]
  | .search vectors count => .arr [.str "search", .arr (vectors.map vectorJson), count]

/-- What a search finds: distances, and positions of documents. -/
structure Found where
  distances : List Json
  positions : List Json

/-- The library: whether it is installed, what its searches are going to find, and what it has
been asked so far. -/
structure Library where
  isInstalled : Bool
  searches : List Found
  calls : List Call

/-- Read an index from a file. -/
def readIndex (files : Files) (path : String) : Outcome Index := do
  let content ← files.open? (files.fromRoot path) path
  let record ← match content with
    | .document value => pure value
    | other => Json.load (Text.decodeLenient other.toBytes)
  match Index.ofJson? record with
  | some index => pure index
  | none => .error .malformedJson

end Retrieval
end CodeQuality
