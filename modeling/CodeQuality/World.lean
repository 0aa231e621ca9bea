import CodeQuality.Job
import CodeQuality.LanguageModel.Service
import CodeQuality.Retrieval.Library

namespace CodeQuality

/-!
The surroundings of a run, and actions that use them.

An action may read and change files, ask the language model, use the search library, keep
reports in the archive and run jobs.  What it has changed and asked stays also when
it fails.
-/

/-- What an action can read and change. -/
structure World where
  files : Files
  service : LanguageModel.Service
  library : Retrieval.Library
  archive : Archive
  jobs : Jobs

/-- A computation in the world that may fail. -/
abbrev Action (α : Type) := ExceptT Fault (StateM World) α

namespace Action

/-- A computation that does not use the world. -/
def ofOutcome (outcome : Outcome α) : Action α :=
  match outcome with
  | .ok value => pure value
  | .error fault => throw fault

/-- Change the files by an operation that may fail after some changes. -/
def changeFiles (change : Files → Outcome α × Files) : Action α := do
  let world ← get
  let (outcome, files) := change world.files
  set { world with files }
  ofOutcome outcome

/-- Put content into a file. -/
def writeFile (path : Files.Path) (shown : String) (content : Files.Content) : Action Unit := do
  let world ← get
  match world.files.write path shown content with
  | .ok files => set { world with files }
  | .error fault => throw fault

/-- The outcome of an action, as a value. -/
def outcome (action : Action α) : Action (Outcome α) := fun world =>
  let (result, after) := action.run.run world
  (.ok result, after)

/-- Ask the language model: the request is remembered, and the next reply is taken. -/
def ask (model : String) (contents : Json) : Action (Option String) := do
  let world ← get
  let requests := world.service.requests ++ [⟨model, contents⟩]
  match world.service.replies with
  | [] =>
      set { world with service := { world.service with requests } }
      throw (.runtime "no more responses")
  | reply :: replies =>
      set { world with service := { world.service with requests, replies } }
      match reply with
      | .text content => pure content
      | .failure message => throw (.runtime message)

/-- Tell the search library to add vectors. -/
def addVectors (vectors : List Retrieval.Vector) : Action Unit := do
  let world ← get
  let calls := world.library.calls ++ [.add vectors]
  set { world with library := { world.library with calls } }

/-- Let the search library search: the call is remembered, and what it finds next is taken. -/
def search (vectors : List Retrieval.Vector) (count : Json) : Action Retrieval.Found := do
  let world ← get
  let calls := world.library.calls ++ [.search vectors count]
  match world.library.searches with
  | [] =>
      set { world with library := { world.library with calls } }
      throw (.runtime "no more searches")
  | found :: searches =>
      set { world with library := { world.library with calls, searches } }
      pure found

/-- Open the archive of the working directory. -/
def openArchive : Action Unit :=
  modify fun world => { world with archive := world.archive.openAt world.files.workingDirectory }

/-- Save a report in the archive. -/
def saveReport (now : Moment) (report : Json) : Action Nat := do
  let world ← get
  let (number, archive) ← ofOutcome (world.archive.save now report)
  set { world with archive }
  pure number

/-- The report with a number. -/
def getReport (id : Json) : Action Json := do
  ofOutcome ((← get).archive.get id)

/-- Start a job and let it run. -/
def runJob (request : Analysis.Request) (name : String) (parameters : Job.Parameters) :
    Action Unit := do
  let world ← get
  let started := world.jobs.start name request.now parameters
  let (jobs, archive) := started.run request world.files world.archive name
  set { world with jobs, archive }

end Action
end CodeQuality
