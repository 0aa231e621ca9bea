import CodeQuality.Files.Tree

namespace CodeQuality
namespace Files

/-!
Making directories.

A directory is made together with the directories above it that are missing.  What
has been made stays when a later step fails.
-/

/-- Remove the slashes at the end of a text, unless there is nothing else. -/
def withoutSlashes (text : List Char) : List Char :=
  if text.all (· == '/') then text else (text.reverse.dropWhile (· == '/')).reverse

/-- Split the text of a path behind its last slash: the directory, and the name in it. -/
def splitText (text : String) : String × String :=
  let reversed := text.toList.reverse
  let name := (reversed.takeWhile (· ≠ '/')).reverse
  let directory := (reversed.dropWhile (· ≠ '/')).reverse
  (String.ofList (withoutSlashes directory), String.ofList name)

/-- The directory of the text of a path. -/
def directoryText (text : String) : String := (splitText text).1

/-- Whether the text of a path names a directory by its end. -/
def namesDirectory (text : String) : Bool := endsWith "/" text || endsWith "/." text

/-- What the text of a path leads to. -/
def statText (files : Files) (text : String) : Except FileCause Entry :=
  if text = "" then .error .absent
  else
    match files.stat (files.fromRoot text) with
    | .ok (.dir entries) => .ok (.dir entries)
    | .ok entry => if namesDirectory text then .error .notDirectory else .ok entry
    | .error cause => .error cause

/-- Whether the text of a path leads to something. -/
def holdsText (files : Files) (text : String) : Bool := (files.statText text).isOk

/-- Make one directory, unless it is there. -/
def ensureDirectory (files : Files) (text : String) : Outcome Unit × Files :=
  if text = "" then (.error (.file .absent text), files)
  else
    match files.makeDirectory (files.fromRoot text) with
    | .ok changed => (.ok (), changed)
    | .error cause =>
        if files.isDir (files.fromRoot text) then (.ok (), files)
        else (.error (.file cause text), files)

/-- Make a directory and those above it, at most as many as a bound says. -/
def ensureDirectoriesWithin : (bound : Nat) → Files → String → Outcome Unit × Files
  | 0, files, text => ensureDirectory files text
  | bound + 1, files, text =>
      let (head, tail) :=
        let (directory, name) := splitText text
        if name = "" then splitText directory else (directory, name)
      if head ≠ "" && tail ≠ "" && !files.holdsText head then
        match ensureDirectoriesWithin bound files head with
        | (.error (.file .present _), changed) => ensureDirectory changed text
        | (.error fault, changed) => (.error fault, changed)
        | (.ok (), changed) => if tail = "." then (.ok (), changed) else ensureDirectory changed text
      else ensureDirectory files text

/-- Make a directory and those above it that are missing. -/
def ensureDirectories (files : Files) (text : String) : Outcome Unit × Files :=
  ensureDirectoriesWithin text.length files text

/-- Make the directory at a resolved path and those above it that are missing; the path is given
from its end. -/
def ensurePathFromEnd (files : Files) : (reversed : Path) → Outcome Unit × Files
  | [] => (.ok (), files)
  | name :: above =>
      let path := (name :: above).reverse
      let shown := absoluteText path
      match files.makeDirectory path with
      | .ok changed => (.ok (), changed)
      | .error .absent =>
          match ensurePathFromEnd files above with
          | (.error fault, changed) => (.error fault, changed)
          | (.ok (), changed) =>
              match changed.makeDirectory path with
              | .ok made => (.ok (), made)
              | .error cause =>
                  if changed.isDir path then (.ok (), changed)
                  else (.error (.file cause shown), changed)
      | .error cause =>
          if files.isDir path then (.ok (), files) else (.error (.file cause shown), files)

/-- Make the directory at a resolved path and those above it that are missing. -/
def ensurePath (files : Files) (path : Path) : Outcome Unit × Files :=
  files.ensurePathFromEnd path.reverse

end Files
end CodeQuality
