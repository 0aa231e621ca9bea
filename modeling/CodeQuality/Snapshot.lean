import CodeQuality.Calendar
import CodeQuality.Files.Tree
import CodeQuality.Json.Display
import CodeQuality.LanguageModel.Config

namespace CodeQuality
namespace Snapshot

/-!
Snapshots of the surroundings.

A snapshot is a record of what the program finds when it starts: files, variables and
the time.  A file is a text, or a record with its bytes or with the target of a link.
A name with a slash at its end is that of an empty directory.
-/

/-- The bytes that pairs of digits stand for. -/
def bytesOf : List Char → List UInt8
  | first :: second :: rest => UInt8.ofNat (Text.hexValue [first, second]) :: bytesOf rest
  | _ => []

/-- The entry that a record describes. -/
def entryOf (record : Json) : Files.Entry :=
  match record with
  | .str text => .file (.bytes (Files.textBytes text))
  | other =>
      match other.get? "hex", other.get? "link" with
      | some (.str digits), _ => .file (.bytes (bytesOf digits.toList))
      | _, some (.str target) => .link target
      | _, _ => .file (.bytes [])

/-- The files of a snapshot below a root.  The root and the working directory are always
there. -/
def filesOf (root workingDirectory : Files.Path) (snapshot : Json) : Files :=
  let empty := ((Files.Entry.dir []).put (.dir []) root).put (.dir []) workingDirectory
  let tree := match snapshot.get? "files" with
    | some (.obj members) => members.foldl (fun tree (name, record) =>
        let entry := if Files.endsWith "/" name then .dir [] else entryOf record
        tree.put entry (root ++ Files.names name)) empty
    | _ => empty
  ⟨tree, workingDirectory⟩

/-- The variables of a snapshot. -/
def environmentOf (snapshot : Json) : Environment :=
  match snapshot.get? "env" with
  | some (.obj members) => members.map fun (name, value) => (name, value.display)
  | _ => []

/-- The time of a snapshot that does not give one. -/
def defaultTime : String := "2025-01-02T03:04:05"

/-- The time of a snapshot. -/
def timeOf (snapshot : Json) : Moment :=
  match snapshot.get? "now" with
  | some (.str text) => .ofText text
  | _ => .ofText defaultTime

end Snapshot
end CodeQuality
