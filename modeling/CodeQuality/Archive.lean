import CodeQuality.Archive.Folder
import CodeQuality.Archive.Table
import CodeQuality.Files.Path
import CodeQuality.Json.Display

namespace CodeQuality

/-!
The archive of reports.

An archive keeps reports in the table of a database, one database for each
directory in which it has been opened.  Without a database it keeps them in a
folder.  That is also what happens before a database has been opened.
-/

/-- An archive: whether there are databases, the tables of the directories where it has been
opened, the directory whose table is in use, and the folder. -/
structure Archive where
  hasDatabases : Bool
  tables : List (Files.Path × Archive.Table)
  opened : Option Files.Path
  folder : Archive.Folder

namespace Archive

/-- An archive that nobody has used. -/
def unused (hasDatabases : Bool) : Archive := ⟨hasDatabases, [], none, .absent⟩

/-- The table of a directory. -/
def tableOf (archive : Archive) (directory : Files.Path) : Table :=
  (archive.tables.lookup directory).getD .empty

/-- Open the archive of a directory.  Reports that are there are kept. -/
def openAt (archive : Archive) (directory : Files.Path) : Archive :=
  if archive.hasDatabases then { archive with opened := some directory }
  else { archive with folder := archive.folder.prepare }

/-- Save a report.  Its number is given back. -/
def save (archive : Archive) (now : Moment) (report : Json) : Outcome (Nat × Archive) :=
  match archive.opened with
  | some directory => do
      let (number, table) ← (archive.tableOf directory).save now report
      pure (number, { archive with tables := (directory, table) :: archive.tables })
  | none => do
      let (number, folder) ← archive.folder.save now report
      pure (number, { archive with folder })

/-- The fault of a number under which there is no report. -/
def notFound (id : Json) : Fault := .badValue ("Report " ++ id.display ++ " not found")

/-- The report with a number. -/
def get (archive : Archive) (id : Json) : Outcome Json := do
  let found ← match archive.opened with
    | some directory => (archive.tableOf directory).find? id
    | none => pure (archive.folder.find? id.display)
  match found with
  | some report => pure report
  | none => .error (notFound id)

/-- How many reports are listed when no limit is given. -/
def defaultLimit : Int := 20

/-- Some of the reports, the newest first. -/
def list (archive : Archive) (limit offset : Int) : Outcome (List Json) :=
  match archive.opened with
  | some directory => (archive.tableOf directory).list limit offset
  | none => .ok (archive.folder.list limit offset)

end Archive
end CodeQuality
