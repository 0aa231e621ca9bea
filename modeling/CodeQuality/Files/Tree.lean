import CodeQuality.Fault
import CodeQuality.Files.Path
import CodeQuality.Json.Writer
import CodeQuality.Text.Line
import CodeQuality.Text.Utf8

namespace CodeQuality
namespace Files

/-!
A tree of files.

A directory lists its entries in order of name.  A file holds bytes, or a JSON
document or a sequence of JSON records that the program itself has written: those
are kept as values, and their text is made only when somebody asks for bytes.
Symbolic links are entries of their own and are followed when a path is resolved,
at most forty times.
-/

/-- What a file holds. -/
inductive Content where
  | bytes (data : List UInt8)
  | document (value : Json)
  | records (values : List Json)

/-- The bytes of a text. -/
def textBytes (text : String) : List UInt8 := text.toList.flatMap String.utf8EncodeChar

/-- The bytes that a reader of the file sees. -/
def Content.toBytes : Content → List UInt8
  | .bytes data => data
  | .document value => textBytes value.render
  | .records values => values.flatMap fun value => textBytes (value.render ++ "\n")

/-- An entry of a directory. -/
inductive Entry where
  | file (content : Content)
  | link (target : String)
  | dir (entries : List (String × Entry))

namespace Entry

/-- Whether an entry is a symbolic link. -/
def isLink : Entry → Bool
  | .link _ => true
  | _ => false

/-- The entry under a name in a listing. -/
def find? (name : String) : List (String × Entry) → Option Entry
  | [] => none
  | (own, entry) :: rest => if own = name then some entry else find? name rest

/-- Put an entry under a name, replacing an entry of that name and keeping the order of names. -/
def place (name : String) (entry : Entry) : List (String × Entry) → List (String × Entry)
  | [] => [(name, entry)]
  | (own, old) :: rest =>
      if name = own then (name, entry) :: rest
      else if name < own then (name, entry) :: (own, old) :: rest
      else (own, old) :: place name entry rest

/-- Remove the entry under a name. -/
def remove (name : String) (entries : List (String × Entry)) : List (String × Entry) :=
  entries.filter fun pair => pair.1 ≠ name

/-- The entries of a directory; nothing else has any. -/
def entries : Entry → List (String × Entry)
  | .dir listing => listing
  | _ => []

/-- The entry at the end of a path, without following links. -/
def at? (entry : Entry) : Path → Option Entry
  | [] => some entry
  | name :: rest =>
      match entry with
      | .dir listing =>
          match find? name listing with
          | some child => child.at? rest
          | none => none
      | _ => none

/-- Put an entry at the end of a path, making the directories on the way.  What stands in the
way of a directory is replaced. -/
def put (entry : Entry) (new : Entry) : Path → Entry
  | [] => new
  | name :: rest =>
      let listing := entry.entries
      let child := (find? name listing).getD (.dir [])
      .dir (place name (child.put new rest) listing)

/-- Remove the entry at the end of a path, if it is there. -/
def delete (entry : Entry) : Path → Entry
  | [] => entry
  | [name] =>
      match entry with
      | .dir listing => .dir (remove name listing)
      | other => other
  | name :: next :: rest =>
      match entry with
      | .dir listing =>
          match find? name listing with
          | some child => .dir (place name (child.delete (next :: rest)) listing)
          | none => .dir listing
      | other => other

end Entry

end Files

/-- A tree of files with a working directory. -/
structure Files where
  root : Files.Entry
  workingDirectory : Files.Path

namespace Files

/-- How often links are followed on the way to one file. -/
def maxLinks : Nat := 40

/-- The names of a path text from the root, not yet resolved. -/
def fromRoot (files : Files) (text : String) : Path :=
  if isAbsolute text then names text else files.workingDirectory ++ names text

/-- Where the names `todo` lead from the resolved directory `done`, links followed.  Names that
do not exist are taken as they are.  Nothing when links do not come to an end. -/
def realPathFrom (root : Entry) (links : Nat) (done : Path) (todo : Path) : Option Path :=
  match todo with
  | [] => some done
  | name :: rest =>
      if name = ".." then realPathFrom root links done.dropLast rest
      else
        match root.at? (done ++ [name]) with
        | some (.link target) =>
            match links with
            | 0 => none
            | remaining + 1 =>
                realPathFrom root remaining (if isAbsolute target then [] else done)
                  (names target ++ rest)
        | _ => realPathFrom root links (done ++ [name]) rest
termination_by (links, todo.length)

/-- The resolved form of a path text. -/
def realPath? (files : Files) (text : String) : Option Path :=
  realPathFrom files.root maxLinks [] (files.fromRoot text)

/-- The resolved form of a path text, or the fault of a link that leads to itself. -/
def resolve (files : Files) (text : String) : Outcome Path :=
  match files.realPath? text with
  | some path => .ok path
  | none => .error (.runtime ("Symlink loop from " ++
      Text.quoted (absoluteText (files.fromRoot text))))

/-- The entry that the names `todo` lead to from the resolved directory `done`, links followed. -/
def statFrom (root : Entry) (links : Nat) (done : Path) (todo : Path) : Except FileCause Entry :=
  match todo with
  | [] =>
      match root.at? done with
      | some entry => .ok entry
      | none => .error .absent
  | name :: rest =>
      match root.at? done with
      | some (.dir listing) =>
          if name = ".." then statFrom root links done.dropLast rest
          else
            match Entry.find? name listing with
            | none => .error .absent
            | some (.link target) =>
                match links with
                | 0 => .error .linkLoop
                | remaining + 1 =>
                    if target = "" then .error .absent
                    else statFrom root remaining (if isAbsolute target then [] else done)
                      (names target ++ rest)
            | some _ => statFrom root links (done ++ [name]) rest
      | some _ => .error .notDirectory
      | none => .error .absent
termination_by (links, todo.length)

/-- The entry at a path from the root, links followed. -/
def stat (files : Files) (path : Path) : Except FileCause Entry :=
  statFrom files.root maxLinks [] path

/-- The place that the names `todo` lead to from the resolved directory `done`, links followed.
Everything on the way has to be there; only the last name need not. -/
def placeFrom (root : Entry) (links : Nat) (done : Path) (todo : Path) : Except FileCause Path :=
  match todo with
  | [] => .ok done
  | name :: rest =>
      match root.at? done with
      | some (.dir listing) =>
          if name = ".." then placeFrom root links done.dropLast rest
          else
            match Entry.find? name listing with
            | none => if rest = [] then .ok (done ++ [name]) else .error .absent
            | some (.link target) =>
                match links with
                | 0 => .error .linkLoop
                | remaining + 1 =>
                    if target = "" then .error .absent
                    else placeFrom root remaining (if isAbsolute target then [] else done)
                      (names target ++ rest)
            | some _ => placeFrom root links (done ++ [name]) rest
      | some _ => .error .notDirectory
      | none => .error .absent
termination_by (links, todo.length)

/-- Whether a path leads to something. -/
def holds (files : Files) (path : Path) : Bool := (files.stat path).isOk

/-- Whether a path leads to a directory. -/
def isDir (files : Files) (path : Path) : Bool :=
  match files.stat path with
  | .ok (.dir _) => true
  | _ => false

/-- The content of the file at a path; `shown` is the path as messages give it. -/
def open? (files : Files) (path : Path) (shown : String) : Outcome Content :=
  match files.stat path with
  | .ok (.file content) => .ok content
  | .ok (.dir _) => .error (.file .isDirectory shown)
  | .ok (.link _) => .error (.file .linkLoop shown)
  | .error cause => .error (.file cause shown)

/-- The text of the file at a path with what cannot be read left out and line endings unified;
empty when the file cannot be opened. -/
def readLenient (files : Files) (path : Path) : List Char :=
  match files.open? path (absoluteText path) with
  | .ok content => Text.unifyNewlines (Text.decodeLenient content.toBytes)
  | .error _ => []

/-- The text of the file at a path with line endings unified, or the fault that prevents
reading it. -/
def readStrict (files : Files) (path : Path) : Outcome (List Char) := do
  let content ← files.open? path (absoluteText path)
  match Text.decodeStrict content.toBytes with
  | .ok text => .ok (Text.unifyNewlines text)
  | .error stop => .error (.undecodable stop.message)

/-- Put content into the file at a path.  Everything on the way to it has to be there, and it must
not be a directory itself. -/
def write (files : Files) (path : Path) (shown : String) (content : Content) : Outcome Files :=
  match placeFrom files.root maxLinks [] path with
  | .error cause => .error (.file cause shown)
  | .ok target =>
      match files.root.at? target with
      | some (.dir _) => .error (.file .isDirectory shown)
      | some (.link _) => .error (.file .linkLoop shown)
      | _ => .ok { files with root := files.root.put (.file content) target }

/-- Make one directory in a directory that is there.  A link at its place is not followed. -/
def makeDirectory (files : Files) (path : Path) : Except FileCause Files :=
  match files.stat path with
  | .ok _ => .error .present
  | .error _ =>
      match placeFrom files.root maxLinks [] path.dropLast with
      | .error cause => .error cause
      | .ok directory =>
          match files.root.at? directory with
          | some (.dir _) =>
              let target := directory ++ path.getLast?.toList
              match files.root.at? target with
              | none => .ok { files with root := files.root.put (.dir []) target }
              | some _ => .error .present
          | some _ => .error .notDirectory
          | none => .error .absent

end Files
end CodeQuality
