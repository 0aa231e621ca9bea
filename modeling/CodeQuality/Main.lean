import CodeQuality.CommandLine
import CodeQuality.Json.Layout
import CodeQuality.Snapshot

namespace CodeQuality

/-!
The program on the command line.

The words of the command line say what to do.  A snapshot of the surroundings is read
from standard input as a JSON record, and nothing else is looked at.
-/

/-- The directory in which a command runs. -/
def home : Files.Path := ["work"]

/-- The world of a snapshot: nothing is installed, and the archive is empty. -/
def worldOf (snapshot : Json) : World :=
  { files := Snapshot.filesOf home home snapshot
    service := ⟨false, [], []⟩
    library := ⟨false, [], []⟩
    archive := .unused true
    jobs := [] }

/-- The setting of a snapshot. -/
def settingOf (snapshot : Json) : Setting :=
  { analysis :=
      { reading := ⟨.plain, .absent⟩
        environment := Snapshot.environmentOf snapshot
        now := Snapshot.timeOf snapshot
        hasRetriever := true }
    hasAdvisor := true
    jobName := Job.nameOf }

/-- All text of a stream. -/
partial def readAll (stream : IO.FS.Stream) (before : String) : IO String := do
  let line ← stream.getLine
  if line.isEmpty then pure before else readAll stream (before ++ line)

end CodeQuality

open CodeQuality in
/-- Run the command that the words of the command line give. -/
def main (words : List String) : IO UInt32 := do
  let text ← readAll (← IO.getStdin) ""
  let snapshot := (Json.parse? text).getD (.obj [])
  let world := worldOf snapshot
  let (outcome, _) := (CommandLine.run (settingOf snapshot) words).run.run world
  match CommandLine.Command.ofWords world.files words, outcome with
  | .ok .help, _ => IO.println CommandLine.overview
  | _, .ok values => values.forM fun value => IO.println value.layout
  | _, .error fault => IO.eprintln ("Error: " ++ fault.message)
  pure (UInt32.ofNat ((CommandLine.exitCode? outcome).getD 1))
