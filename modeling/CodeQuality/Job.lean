import CodeQuality.Analysis
import CodeQuality.Archive

namespace CodeQuality

/-!
Jobs that analyse a repository.

A job waits, runs, and then either has finished with the number of its report or has
failed with a text.  Starting a job only enters it, and running it is a step of its
own, because a job in the background runs at some later time.
-/

namespace Job

/-- What a job is to analyse, as it was asked for. -/
structure Parameters where
  path : String
  languages : Json
  isIndexed : Json
  usesModel : Json

/-- The record of the parameters. -/
def Parameters.toJson (parameters : Parameters) : Json :=
  .obj [("path", .str parameters.path), ("languages", parameters.languages),
    ("index_for_rag", parameters.isIndexed), ("use_llm", parameters.usesModel)]

/-- Whether the repository is to be indexed after the analysis. -/
def Parameters.wantsIndex (parameters : Parameters) : Bool :=
  parameters.isIndexed.isTruthy && parameters.usesModel.isTruthy

/-- The word for how far a job has come. -/
inductive Status where
  | pending
  | running
  | finished
  | failed
deriving DecidableEq

/-- How a status is written. -/
def Status.word : Status → String
  | .pending => "pending"
  | .running => "running"
  | .finished => "finished"
  | .failed => "failed"

/-- How far a job has come: when it came to its end, the number of its report, why it has failed,
and why there is no index.  The parts are entered one after the other. -/
structure Progress where
  status : Status
  endedAt? : Option Moment
  report? : Option Nat
  error? : Option String
  indexNote? : Option String

namespace Progress

/-- A job that waits. -/
def pending : Progress := ⟨.pending, none, none, none, none⟩

/-- A job that is worked on. -/
def running : Progress := { pending with status := .running }

/-- A job that has finished with a report.  There may be a note why there is no index. -/
def finished (moment : Moment) (report : Nat) (indexNote : Option String) : Progress :=
  ⟨.finished, some moment, some report, none, indexNote⟩

/-- A job that has failed. -/
def failed (moment : Moment) (error : String) : Progress :=
  ⟨.failed, some moment, none, some error, none⟩

end Progress
end Job

/-- A job: when it was started, what it is to do, and how far it has come. -/
structure Job where
  startedAt : Moment
  parameters : Job.Parameters
  progress : Job.Progress

namespace Job

/-- The record of a job. -/
def toJson (job : Job) : Json :=
  let note := match job.progress.indexNote? with
    | some text => [("index_error", Json.str text)]
    | none => []
  .obj ([("status", .str job.progress.status.word), ("created_at", .str job.startedAt.text),
    ("finished_at", .ofText? (job.progress.endedAt?.map (·.text))),
    ("report_id", .ofNat? job.progress.report?), ("params", job.parameters.toJson),
    ("error", .ofText? job.progress.error?)] ++ note)

/-- Why a job never has an index: the indexer wants a store, and it is not given one. -/
def indexRefusal : String :=
  "index_repo() missing 1 required positional argument: 'vector_store'"

/-- The name of a job by the number of jobs before it. -/
def nameOf (number : Nat) : String := "job-" ++ String.ofList (Text.hexDigits 32 number)

/-- Do the work of a job: analyse the repository and save the report. -/
def work (request : Analysis.Request) (files : Files) (archive : Archive)
    (parameters : Parameters) : Progress × Archive :=
  let saved := do
    let analysis ← Analysis.ofRepository request files parameters.path parameters.languages
      parameters.wantsIndex
    archive.save request.now analysis.toJson
  match saved with
  | .ok (number, grown) =>
      let note := if parameters.wantsIndex then some indexRefusal else none
      (.finished request.now number note, grown)
  | .error fault => (.failed request.now fault.message, archive)

end Job

/-- All jobs by their name, in the order in which they were started. -/
abbrev Jobs := List (String × Job)

namespace Jobs

/-- The job with a name. -/
def find? (jobs : Jobs) (name : String) : Option Job := jobs.lookup name

/-- Put a job under its name. -/
def put (name : String) (job : Job) : Jobs → Jobs
  | [] => [(name, job)]
  | (key, held) :: rest =>
      if key = name then (key, job) :: rest else (key, held) :: put name job rest

/-- Enter a new job. -/
def start (jobs : Jobs) (name : String) (now : Moment) (parameters : Job.Parameters) : Jobs :=
  put name ⟨now, parameters, .pending⟩ jobs

/-- Run the job with a name.  Without such a job nothing happens. -/
def run (request : Analysis.Request) (files : Files) (jobs : Jobs) (archive : Archive)
    (name : String) : Jobs × Archive :=
  match jobs.find? name with
  | none => (jobs, archive)
  | some job =>
      let (progress, grown) := Job.work request files archive job.parameters
      (put name { job with progress } jobs, grown)

/-- The record of the job with a name, or that there is none. -/
def record (jobs : Jobs) (name : String) : Json :=
  match jobs.find? name with
  | some job => job.toJson
  | none => .obj [("status", .str "not_found"), ("job_id", .str name)]

end Jobs
end CodeQuality
