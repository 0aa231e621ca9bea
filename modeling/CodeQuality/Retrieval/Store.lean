import CodeQuality.Files.Directory
import CodeQuality.Retrieval.Embedding

namespace CodeQuality
namespace Retrieval

/-!
Stores of documents with their vectors.

A store finds the documents whose vectors are closest to that of a question.  It
uses the search library if that is installed and the language model is turned on,
and compares all vectors otherwise.  Either way it can be written to a file and read
back.
-/

/-- A store of documents.  There is an index if the search library is used. -/
structure Store where
  indexPath : String
  index : Option Index
  documents : List Json
  embeddings : List Json

namespace Store

/-- Where a store is kept when no place is given. -/
def defaultPath : String := "./data/faiss.index"

/-- The path of a store, as it is given or the usual one. -/
def pathOf (path : Option String) : String :=
  match path with
  | some given => if given = "" then defaultPath else given
  | none => defaultPath

/-- The dimension of an index of this program. -/
def emptyIndex : Index := ⟨dimension, 0⟩

/-- Open a store.  An index at its path is used if its dimension fits. -/
def new (environment : Environment) (path : Option String) (wantsLibrary : Bool) :
    Action Store := do
  let config ← Action.ofOutcome (LanguageModel.Config.load environment)
  let indexPath := pathOf path
  let world ← get
  if wantsLibrary && world.library.isInstalled && config.isEnabled then
    if world.files.holdsText indexPath then
      let found ← Action.ofOutcome (readIndex world.files indexPath)
      let index := if found.dimension = dimension then found else emptyIndex
      pure ⟨indexPath, some index, [], []⟩
    else pure ⟨indexPath, some emptyIndex, [], []⟩
  else pure ⟨indexPath, none, [], []⟩

/-- Add documents.  Either all of them are added or none. -/
def add (store : Store) (environment : Environment) (documents : Json) : Action Store := do
  let added ← Action.ofOutcome documents.elements
  let texts ← added.mapM fun document => Action.ofOutcome (document.element "text")
  let vectors ← embed environment texts
  let grown := { store with
    documents := store.documents ++ added
    embeddings := store.embeddings ++ vectors.map vectorJson }
  match store.index with
  | some index =>
      Action.addVectors vectors
      pure { grown with index := some { index with total := index.total + vectors.length } }
  | none => pure grown

/-- Where the documents of an index are kept. -/
def documentsPath (store : Store) : String := store.indexPath ++ ".meta.json"

/-- The records of documents with their vectors, as they are kept without an index. -/
def records (store : Store) : List Json :=
  (store.documents.zip store.embeddings).map fun (document, embedding) =>
    .obj [("doc", document), ("embedding", embedding)]

/-- Write a store to its path. -/
def save (store : Store) : Action Unit := do
  Action.changeFiles fun files => files.ensureDirectories (Files.directoryText store.indexPath)
  let write := fun (path : String) (content : Files.Content) => do
    Action.writeFile ((← get).files.fromRoot path) path content
  match store.index with
  | some index =>
      write store.indexPath (.document index.toJson)
      write store.documentsPath (.document (.arr store.documents))
  | none => write store.indexPath (.records store.records)

/-- The value of a file that holds one. -/
def readDocument (files : Files) (path : String) : Outcome Json := do
  match ← files.open? (files.fromRoot path) path with
  | .document value => pure value
  | other =>
      match Text.decodeStrict other.toBytes with
      | .error stop => .error (.undecodable stop.message)
      | .ok text => Json.load text

/-- Take the records of lines one after the other, until one cannot be used. -/
def takeRecords (store : Store) : List (Outcome Json) → Outcome Unit × Store
  | [] => (.ok (), store)
  | line :: rest =>
      let document := do (← line).element "doc"
      match document with
      | .error fault => (.error fault, store)
      | .ok document =>
          let held := { store with documents := store.documents ++ [document] }
          match (do (← line).element "embedding" : Outcome Json) with
          | .error fault => (.error fault, held)
          | .ok embedding =>
              takeRecords { held with embeddings := held.embeddings ++ [embedding] } rest

/-- The lines of what a file holds, each as a value. -/
def lineValuesIn (content : Files.Content) : Outcome (List (Outcome Json)) :=
  match content with
  | .records values => pure (values.map .ok)
  | other =>
      match Text.decodeStrict other.toBytes with
      | .error stop => .error (.undecodable stop.message)
      | .ok text => pure ((Text.physicalLines (Text.unifyNewlines text)).map Json.load)

/-- The lines of a file, each as a value. -/
def lineValues (files : Files) (path : String) : Outcome (List (Outcome Json)) := do
  lineValuesIn (← files.open? (files.fromRoot path) path)

/-- Read a store back from its path.  When a record cannot be used, those before it have been
taken. -/
def load (store : Store) (files : Files) : Outcome Unit × Store :=
  if files.holdsText store.indexPath then
    match store.index with
    | some _ =>
        match readIndex files store.indexPath with
        | .error fault => (.error fault, store)
        | .ok index =>
            let indexed := { store with index := some index }
            if files.holdsText store.documentsPath then
              match readDocument files store.documentsPath with
              | .error fault => (.error fault, indexed)
              | .ok documents =>
                  (.ok (), { indexed with documents := (documents.elements.toOption).getD [] })
            else (.ok (), indexed)
    | none =>
        let emptied := { store with documents := [], embeddings := [] }
        match lineValues files store.indexPath with
        | .error fault => (.error fault, emptied)
        | .ok lines => takeRecords emptied lines
  else (.ok (), store)

/-- Whether reading a store back puts a new list in the place of the documents, and whether it
does so for the vectors; lists that are not replaced grow in place. -/
def renewedByLoad (store : Store) (files : Files) : Bool × Bool :=
  if files.holdsText store.indexPath then
    match store.index with
    | some _ => ((store.load files).1.isOk && files.holdsText store.documentsPath, false)
    | none => (true, true)
  else (false, false)

/-! ## Questions -/

/-- The sum of values. -/
def total (values : List Json) : Outcome Json := values.foldlM Json.plus (.int 0)

/-- A number as a floating-point one. -/
def asFloat (value : Json) : Outcome Number.Binary64 :=
  match value with
  | .float x => .ok x
  | other =>
      match other.wholeNumber? with
      | some n => Json.nearestFloat n
      | none => .error (.wrongKind ("must be real number, not " ++ other.kindName))

/-- What keeps a quotient of vectors from being one by nought. -/
def smallest : Number.Binary64 := ⟨0x3ddb7cdfd9d7bdbb⟩

/-- How close a vector is to the vector of a question: their product over their lengths. -/
def similarity (question : Vector) (embedding : Json) : Outcome Number.Binary64 := do
  let items ← embedding.elements
  let query := question.map Json.float
  let dot ← total (← (query.zip items).mapM fun (a, b) => Json.product a b)
  let questionLength ← asFloat (← total (← query.mapM fun a => Json.product a a))
  let length ← asFloat (← total (← items.mapM fun b => Json.product b b))
  pure ((← asFloat dot) / (questionLength.sqrt * length.sqrt + smallest))

/-- The first items of a list, as many as a value says. -/
def leadingBy (items : List α) (count : Json) : Outcome (List α) :=
  match count, count.wholeNumber? with
  | .null, _ => .ok items
  | _, some n => .ok (Text.upTo items n)
  | _, none => .error (.wrongKind
      "slice indices must be integers or None or have an __index__ method")

/-- A document that was found, with its score. -/
structure Hit where
  document : Json
  score : Json

/-- The record of a document that was found. -/
def Hit.toJson (hit : Hit) : Json := .obj [("doc", hit.document), ("score", hit.score)]

/-- The item of a list at a position, which counts from the end when it is negative. -/
def itemAt (items : List Json) (position : Int) : Outcome Json :=
  let place := if position < 0 then position + items.length else position
  if place < 0 then .error .outOfRange
  else
    match items[place.toNat]? with
    | some item => .ok item
    | none => .error .outOfRange

/-- The documents at the positions that a search gives, without those behind the last document. -/
def foundHits (documents : List Json) (found : Found) : Outcome (List Hit) := do
  let hits ← (found.distances.zip found.positions).mapM fun (distance, position) => do
    match position.wholeNumber? with
    | some place =>
        if place < documents.length then
          let document ← itemAt documents place
          pure (some ⟨document, .float (← asFloat distance)⟩)
        else pure none
    | none => .error (Json.incomparable "<" position (.nat documents.length))
  pure (hits.filterMap id)

/-- The documents closest to a question, the closest first. -/
def query (store : Store) (environment : Environment) (question : Json) (count : Json) :
    Action (List Hit) := do
  let vectors ← embed environment [question]
  let vector := vectors.headD []
  let scan : Outcome (List Hit) := do
    let scored ← (store.documents.zip store.embeddings).mapM fun (document, embedding) => do
      pure (⟨document, .float (← similarity vector embedding)⟩ : Hit)
    leadingBy (← Sorting.descendingBy (·.score) scored) count
  match store.index with
  | some index =>
      if 0 < index.total then
        let found ← Action.search [vector] count
        Action.ofOutcome (foundHits store.documents found)
      else Action.ofOutcome scan
  | none => Action.ofOutcome scan

/-- The record of a retrieved passage. -/
structure Passage where
  text : Json
  about : Json
  score : Json

/-- The record of a passage. -/
def Passage.toJson (passage : Passage) : Json :=
  .obj [("text", passage.text), ("meta", passage.about), ("score", passage.score)]

/-- The passages closest to a question. -/
def retrieve (store : Store) (environment : Environment) (question : Json) (count : Json) :
    Action (List Passage) := do
  let hits ← store.query environment question count
  hits.mapM fun hit => Action.ofOutcome do
    pure ⟨← hit.document.element "text", ← hit.document.element "meta", hit.score⟩

end Store
end Retrieval
end CodeQuality
