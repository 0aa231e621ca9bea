import CodeQuality.Calendar
import CodeQuality.Json.Access

namespace CodeQuality
namespace Archive

/-!
Reports kept as documents in a folder.

Beside the documents the folder holds a catalog: the last number that was given, and
the place of the document of every number.  Saving reads and writes the catalog
twice, once to take a number and once to enter the place.  Each reading and each
writing is a function of its own, so that the steps of several savings can be
interleaved.
-/

/-- The number given last, and the places of the documents by their number. -/
structure Catalog where
  lastNumber : Nat
  places : List (Nat × String)
deriving DecidableEq

namespace Catalog

/-- The catalog of a folder without reports. -/
def empty : Catalog := ⟨0, []⟩

/-- The place of the document whose number is written so. -/
def place? (catalog : Catalog) (number : String) : Option String :=
  (catalog.places.find? fun entry => toString entry.1 = number).map (·.2)

/-- The record of a catalog. -/
def toJson (catalog : Catalog) : Json :=
  .obj [("last_id", .nat catalog.lastNumber),
    ("map", .obj (catalog.places.map fun (number, place) => (toString number, .str place)))]

/-- The catalog after a place has been entered.  A number keeps its position. -/
def enter (catalog : Catalog) (number : Nat) (place : String) : Catalog :=
  { catalog with places := enterIn catalog.places }
where
  enterIn : List (Nat × String) → List (Nat × String)
    | [] => [(number, place)]
    | (key, held) :: rest =>
        if key = number then (key, place) :: rest else (key, held) :: enterIn rest

end Catalog

/-- The folder of an archive: whether it has been made, its catalog once there is one, and its
documents by place. -/
structure Folder where
  isMade : Bool
  catalog : Option Catalog
  documents : List (String × Json)

namespace Folder

/-- A folder that has not been made. -/
def absent : Folder := ⟨false, none, []⟩

/-- Make the folder, with a catalog.  What is there is kept. -/
def prepare (folder : Folder) : Folder :=
  { folder with isMade := true, catalog := some (folder.catalog.getD .empty) }

/-- Where the catalog is kept. -/
def catalogPlace : String := "data/index.json"

/-- Read the catalog. -/
def readCatalog (folder : Folder) : Catalog := folder.catalog.getD .empty

/-- Write the catalog.  The folder has to be made. -/
def writeCatalog (folder : Folder) (catalog : Catalog) : Outcome Folder :=
  if folder.isMade then .ok { folder with catalog := some catalog }
  else .error (.file .absent catalogPlace)

/-- The place of a new document.  Its number keeps it apart from every other. -/
def newPlace (now : Moment) (number : Nat) : String :=
  "data/report_" ++ toString now.timestamp ++ "_" ++ toString number ++ ".json"

/-- Write a document.  The folder has to be made. -/
def writeDocument (folder : Folder) (place : String) (report : Json) : Outcome Folder :=
  if folder.isMade then
    .ok { folder with documents := (place, report) :: folder.documents }
  else .error (.file .absent place)

/-- Take the next number. -/
def takeNumber (folder : Folder) : Outcome (Nat × Folder) := do
  let catalog := folder.readCatalog
  let number := catalog.lastNumber + 1
  pure (number, ← folder.writeCatalog { catalog with lastNumber := number })

/-- Save a report under the next number. -/
def save (folder : Folder) (now : Moment) (report : Json) : Outcome (Nat × Folder) := do
  let (number, numbered) ← folder.takeNumber
  let place := newPlace now number
  let written ← numbered.writeDocument place report
  pure (number, ← written.writeCatalog (written.readCatalog.enter number place))

/-- The report whose number is written so. -/
def find? (folder : Folder) (number : String) : Option Json := do
  let place ← folder.readCatalog.place? number
  folder.documents.lookup place

/-- The numbers of the catalog, the highest first. -/
def numbers (folder : Folder) : List Nat :=
  (folder.readCatalog.places.map (·.1)).mergeSort fun first second => decide (second ≤ first)

/-- Some of the reports, the newest first.  A report whose document is gone is left out. -/
def list (folder : Folder) (limit offset : Int) : List Json :=
  (Text.slice folder.numbers offset (offset + limit)).filterMap fun number =>
    folder.find? (toString number)

/-- Remove the document of a report.  The catalog keeps its place. -/
def removeDocument (folder : Folder) (number : String) : Outcome Folder :=
  match folder.readCatalog.place? number with
  | none => .error (.missingKey number)
  | some place =>
      if (folder.documents.lookup place).isSome then
        .ok { folder with documents := folder.documents.filter fun (held, _) => held ≠ place }
      else .error (.file .absent place)

end Folder
end Archive
end CodeQuality
