import CodeQuality.Files.Tree

namespace CodeQuality
namespace Files

/-!
Visiting the directories of a tree.

`visits` goes through a directory and all directories below it, parents first and
siblings in order of name, and says for each which of its entries are folders and
which are not.  A link to a directory is listed as a folder but never entered.
`matching` lists the entries with a given ending, of any kind, of every directory.
-/

/-- One visited directory: its path below the start, its folders, and its other entries. -/
structure Visit where
  path : Path
  folders : List String
  files : List String

/-- Whether an entry is listed as a folder; `linked` answers for the links by their path. -/
def Entry.isFolder (linked : Path → Bool) (path : Path) : Entry → Bool
  | .dir _ => true
  | .link _ => linked path
  | .file _ => false

/-- The folders of a listing. -/
def folderNames (linked : Path → Bool) (here : Path) (entries : List (String × Entry)) :
    List String :=
  (entries.filter fun (name, entry) => entry.isFolder linked (here ++ [name])).map Prod.fst

/-- The entries of a listing that are no folders. -/
def fileNames (linked : Path → Bool) (here : Path) (entries : List (String × Entry)) :
    List String :=
  (entries.filter fun (name, entry) => !entry.isFolder linked (here ++ [name])).map Prod.fst

mutual

/-- The visits of an entry and of everything below it.  Directories whose names are not kept
are listed but not entered. -/
def Entry.visits (linked : Path → Bool) (kept : String → Bool) (here : Path) :
    Entry → List Visit
  | .dir entries =>
      ⟨here, folderNames linked here entries, fileNames linked here entries⟩ ::
        visitsBelow linked kept here entries
  | .file _ => []
  | .link _ => []

/-- The visits of the directories of a listing. -/
def visitsBelow (linked : Path → Bool) (kept : String → Bool) (here : Path) :
    List (String × Entry) → List Visit
  | [] => []
  | (name, entry) :: rest =>
      (if kept name then entry.visits linked kept (here ++ [name]) else []) ++
        visitsBelow linked kept here rest

end

/-- The visits of a directory, paths relative to it; none when it is no directory. -/
def visits (files : Files) (kept : String → Bool) (start : Path) : List Visit :=
  match files.stat start with
  | .ok (.dir entries) =>
      (Entry.dir entries).visits (fun path => files.isDir (start ++ path)) kept []
  | _ => []

mutual

/-- The paths of the entries below a directory whose names end in a given text. -/
def Entry.matching (ending : String) (here : Path) : Entry → List Path
  | .dir entries =>
      ((entries.map Prod.fst).filter (endsWith ending)).map (fun name => here ++ [name]) ++
        matchingBelow ending here entries
  | .file _ => []
  | .link _ => []

/-- The paths of the entries with a given ending in the directories of a listing. -/
def matchingBelow (ending : String) (here : Path) : List (String × Entry) → List Path
  | [] => []
  | (name, entry) :: rest =>
      entry.matching ending (here ++ [name]) ++ matchingBelow ending here rest

end

/-- The entries with a given ending in a directory and below it, paths relative to it. -/
def matching (files : Files) (ending : String) (start : Path) : List Path :=
  match files.stat start with
  | .ok (.dir entries) => (Entry.dir entries).matching ending []
  | _ => []

/-- The names in a directory, in order. -/
def list (files : Files) (path : Path) : List String :=
  match files.stat path with
  | .ok (.dir entries) => entries.map Prod.fst
  | _ => []

end Files
end CodeQuality
