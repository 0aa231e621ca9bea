import CodeQuality.Proofs.Archive.Opened
import CodeQuality.Proofs.Archive.Simultaneous
import CodeQuality.Job
import CodeQuality.Proofs.Score

namespace CodeQuality

open Analysis Job

/-!
Jobs, those who work on them, and the archive that takes their reports.

Every job has a worker of its own.  Workers take turns in any order, so the turns of one
may come between those of another.  In its turns a worker says that the job is running,
makes the analysis, saves the report, and enters into the record of the job what the
work has come to, one part after the other.  A saving in a folder takes five turns, as
many as it reads and writes; a saving in a table is one turn.  The files and the clock
are those of the turn.

Here it is said what a single turn does, and that a worker who is alone does what is
done when a job is run at once.
-/

namespace Archive

/-- The next step of a saving in an archive. -/
def Saver.keep (archive : Archive) (saver : Saver) : Archive × Saver :=
  match archive.opened with
  | none =>
      let (folder, next) := saver.advance archive.folder
      ({ archive with folder }, next)
  | some _ =>
      match archive.save saver.saving.moment saver.saving.report with
      | .ok (number, grown) => (grown, { saver with stage := .done number })
      | .error fault => (archive, { saver with stage := .refused fault })

/-- How many steps a saving has left. -/
def Stage.left (stage : Stage) : Nat := 5 - stage.steps?.getD 5

/-- What a saving has come to, once it has come to an end. -/
def Stage.outcome? : Stage → Option (Except String Nat)
  | .done number => some (.ok number)
  | .refused fault => some (.error fault.message)
  | _ => none

end Archive

namespace Job

/-- The analysis that a job is to make. -/
def Parameters.analysis (request : Request) (files : Files) (parameters : Parameters) :
    Outcome Analysis :=
  ofRepository request files parameters.path parameters.languages parameters.wantsIndex

/-- A part of the progress of a job. -/
inductive Entry where
  | status (status : Status)
  | endedAt (moment : Moment)
  | report (number : Nat)
  | error (text : String)
  | indexNote (text : String)

/-- Enter a part. -/
def Progress.enter (progress : Progress) : Entry → Progress
  | .status status => { progress with status }
  | .endedAt moment => { progress with endedAt? := some moment }
  | .report number => { progress with report? := some number }
  | .error text => { progress with error? := some text }
  | .indexNote text => { progress with indexNote? := some text }

/-- What is entered after the work, one after the other.  The moment of the end comes last. -/
def entries (parameters : Parameters) : Except String Nat → List Entry
  | .ok number =>
      .report number ::
        ((if parameters.wantsIndex then [.indexNote indexRefusal] else []) ++ [.status .finished])
  | .error text => [.status .failed, .error text]

/-- The progress when everything has been entered. -/
def concluded (parameters : Parameters) (moment : Moment) : Except String Nat → Progress
  | .ok number =>
      .finished moment number (if parameters.wantsIndex then some indexRefusal else none)
  | .error text => .failed moment text

end Job

/-- How far a worker has come.  What is yet to be entered into the record is there as a list. -/
inductive Phase where
  | waiting
  | analysing
  | saving
  | recording (rest : List Entry)
  | ended

/-- The worker of a job.  Before there is a report, nothing worth saving is in its hands. -/
structure Worker where
  name : String
  job : Job
  phase : Phase
  saver : Archive.Saver

namespace Worker

/-- The worker of a job that has just been started. -/
def begin (name : String) (now : Moment) (parameters : Parameters) : Worker :=
  ⟨name, ⟨now, parameters, .pending⟩, .waiting, ⟨⟨now, .null⟩, .waiting⟩⟩

/-- Enter something into the record of the job. -/
def enter (worker : Worker) (entry : Entry) : Worker :=
  { worker with job := { worker.job with progress := worker.job.progress.enter entry } }

/-- Go on to what is to be entered when the work has come to a result. -/
def conclude (worker : Worker) (result : Except String Nat) : Worker :=
  { worker with phase := .recording (entries worker.job.parameters result) }

/-- The next turn of a worker, and the archive after it. -/
def turn (request : Request) (files : Files) (archive : Archive) (worker : Worker) :
    Archive × Worker :=
  match worker.phase with
  | .waiting => (archive, { worker.enter (.status .running) with phase := .analysing })
  | .analysing =>
      match worker.job.parameters.analysis request files with
      | .ok analysis =>
          (archive, { worker with
            phase := .saving, saver := ⟨⟨request.now, analysis.toJson⟩, .waiting⟩ })
      | .error fault => (archive, worker.conclude (.error fault.message))
  | .saving =>
      let (changed, saver) := worker.saver.keep archive
      match saver.stage.outcome? with
      | some result => (changed, { worker with saver }.conclude result)
      | none => (changed, { worker with saver })
  | .recording (entry :: rest) => (archive, { worker.enter entry with phase := .recording rest })
  | .recording [] => (archive, { worker.enter (.endedAt request.now) with phase := .ended })
  | .ended => (archive, worker)

end Worker

/-- The archive, and the workers in the order in which their jobs were started. -/
structure Workshop where
  archive : Archive
  workers : List Worker

namespace Workshop

/-- The jobs by their name. -/
def jobs (workshop : Workshop) : Jobs :=
  workshop.workers.map fun worker => (worker.name, worker.job)

/-- What can happen in a workshop. -/
inductive Event where
  | starting (name : String) (now : Moment) (parameters : Parameters)
  | working (position : Nat) (request : Request) (files : Files)
  | reading (name : String)

namespace Event

/-- What is said of a job when it is started. -/
def started? : Event → Option (String × Moment × Parameters)
  | .starting name now parameters => some (name, now, parameters)
  | _ => none

/-- The request and the files of a turn of the worker at a position. -/
def turn? (position : Nat) : Event → Option (Request × Files)
  | .working own request files => if own = position then some (request, files) else none
  | _ => none

end Event

/-- The workshop after an event.  Reading gives the record of a job, and that is all. -/
def perform (workshop : Workshop) : Event → Workshop
  | .starting name now parameters =>
      { workshop with workers := workshop.workers ++ [.begin name now parameters] }
  | .working position request files =>
      match workshop.workers[position]? with
      | none => workshop
      | some worker =>
          let (archive, next) := worker.turn request files workshop.archive
          ⟨archive, workshop.workers.set position next⟩
  | .reading _ => workshop

/-- The workshop after some events. -/
def after (workshop : Workshop) (events : List Event) : Workshop := events.foldl perform workshop

/-- A workshop without jobs, around an archive. -/
def around (archive : Archive) : Workshop := ⟨archive, []⟩

/-- No name is given twice. -/
def Orderly (events : List Event) : Prop :=
  ((events.filterMap Event.started?).map Prod.fst).Nodup

instance (events : List Event) : Decidable (Orderly events) :=
  inferInstanceAs (Decidable (List.Nodup _))

/-- Whether an event is a stale writing of the catalog. -/
def isStale (workshop : Workshop) : Event → Bool
  | .working position _ _ =>
      workshop.workers[position]?.any fun worker => worker.saver.isStale workshop.archive.folder
  | _ => false

/-- Whether no writing of the catalog is stale. -/
def neverStale (workshop : Workshop) : List Event → Bool
  | [] => true
  | event :: rest => !workshop.isStale event && (workshop.perform event).neverStale rest

theorem after_cons (workshop : Workshop) (event : Event) (later : List Event) :
    workshop.after (event :: later) = (workshop.perform event).after later := rfl

theorem after_append (workshop : Workshop) (before later : List Event) :
    workshop.after (before ++ later) = (workshop.after before).after later :=
  List.foldl_append

end Workshop

/-! ## Steps of a saving -/

/-- The report of an analysis has a score for which there is place in a table. -/
theorem Job.scoreOf_analysis {request : Request} {files : Files} {path : String}
    {languages : Json} {isIndexed : Bool} {analysis : Analysis}
    (analysed : ofRepository request files path languages isIndexed = .ok analysis) :
    Archive.Table.scoreOf analysis.toJson = .ok analysis.overallScore ∧
      Archive.Table.fits analysis.overallScore = true := by
  have range : 0 ≤ analysis.overallScore ∧ analysis.overallScore ≤ 100 := by
    rw [ofRepository] at analysed
    rcases Outcome.exists_of_bind analysed with ⟨root, -, rest⟩
    rcases Outcome.exists_of_bind rest with ⟨requested, -, rest⟩
    rcases Outcome.exists_of_bind rest with ⟨collected, -, rest⟩
    rcases Outcome.exists_of_bind rest with ⟨issues, -, rest⟩
    rcases Outcome.exists_of_bind rest with ⟨score, scored, rest⟩
    cases rest
    exact Score.range_of_ofRepository score scored
  constructor
  · cases analysis with
    | mk path analyzedAt indexingNote summary overallScore languages issues files =>
        cases indexingNote <;> rfl
  · rw [Archive.Table.fits, decide_eq_true (by omega), decide_eq_true (by omega)]
    rfl

namespace Archive

/-- The folder is there if it is in use. -/
def Ready (archive : Archive) : Prop := archive.opened = none → archive.folder.isMade = true

/-- With a table, a saving has not begun or has come to an end. -/
def Saver.Undivided (archive : Archive) (saver : Saver) : Prop :=
  archive.opened ≠ none → saver.stage.outcome? = none → saver.stage = .waiting

/-- What a turn of a worker can mean for the archive: nothing, a new saving in hand, or the next
step of the saving.  In a table this is the whole saving, for which there may be no number left. -/
inductive Moves (archive : Archive) (saver : Saver) : Archive → Saver → Prop where
  | rested : Moves archive saver archive saver
  | handed {saving : Saving} (unsaved : saver.stage = .waiting) :
      Moves archive saver archive ⟨saving, .waiting⟩
  | stepped {folder : Folder} {next : Stage} (unsettled : saver.stage.outcome? = none)
      (inFolder : archive.opened = none)
      (advanced : saver.advance archive.folder = (folder, { saver with stage := next }))
      (steps : Crowd.Steps archive.folder saver saver.stage folder next) :
      Moves archive saver { archive with folder } { saver with stage := next }
  | saved {number : Nat} {grown : Archive} (unsettled : saver.stage.outcome? = none)
      (inTable : archive.opened ≠ none)
      (saved : archive.save saver.saving.moment saver.saving.report = .ok (number, grown)) :
      Moves archive saver grown { saver with stage := .done number }
  | full (unsettled : saver.stage.outcome? = none) (inTable : archive.opened ≠ none) :
      Moves archive saver archive { saver with stage := .refused Table.full }

section

variable {archive changed : Archive} {saver next : Saver}

/-- A saving that has not come to an end has fewer steps left after the next one.  When it comes to
an end, it has a number, or there was none left. -/
theorem exists_keep (ready : archive.Ready) {score : Int}
    (scored : Table.scoreOf saver.saving.report = .ok score) (fitting : Table.fits score = true)
    (unsettled : saver.stage.outcome? = none) :
    ∃ changed stage, saver.keep archive = (changed, { saver with stage }) ∧
      archive.Moves saver changed { saver with stage } ∧ stage.left < saver.stage.left ∧
      ∀ result, stage.outcome? = some result →
        (∃ number, stage = .done number ∧ result = .ok number) ∨
          stage = .refused Table.full ∧ result = .error Table.full.message := by
  rcases saver with ⟨saving, before⟩
  cases inUse : archive.opened with
  | none =>
      rcases Crowd.steps_advance (ready inUse) ⟨saving, before⟩ with
        ⟨folder, stage, advanced, steps⟩
      refine ⟨_, _, ?_, .stepped unsettled inUse advanced steps, ?_⟩
      · rw [Saver.keep, inUse]
        simp only [advanced]
      · cases steps with
        | rested | gaveUp => cases unsettled
        | entered =>
            exact ⟨Nat.zero_lt_one, fun _ same => .inl ⟨_, rfl, (Option.some.inj same).symm⟩⟩
        | _ => exact ⟨Nat.lt_succ_self _, fun _ none => by cases none⟩
  | some directory =>
      have inTable : archive.opened ≠ none := by simp [inUse]
      have positive : 0 < before.left := by
        cases before with
        | done | refused => cases unsettled
        | _ => exact Nat.zero_lt_succ _
      cases outcome : archive.save saving.moment saving.report with
      | ok result =>
          refine ⟨_, _, ?_, .saved unsettled inTable outcome, positive, fun _ same =>
            .inl ⟨_, rfl, (Option.some.inj same).symm⟩⟩
          rw [Saver.keep, inUse]
          simp only [outcome]
      | error fault =>
          have isFull : fault = Table.full := by
            rw [save_of_opened inUse, Table.save_of_scored scored fitting] at outcome
            split at outcome <;> cases outcome
            rfl
          refine ⟨_, _, ?_, .full unsettled inTable, positive, fun _ same =>
            .inr ⟨rfl, (Option.some.inj same).symm⟩⟩
          rw [Saver.keep, inUse]
          simp only [outcome, isFull]

theorem Saver.Undivided.isStale_eq (undivided : saver.Undivided archive)
    (inTable : archive.opened ≠ none) (folder : Folder) : saver.isStale folder = false := by
  rcases saver with ⟨saving, stage⟩
  cases stage with
  | counting | entering => cases undivided inTable rfl
  | _ => rfl

namespace Moves

theorem opened_eq (moves : archive.Moves saver changed next) : changed.opened = archive.opened := by
  cases moves with
  | saved _ inTable saved =>
      rcases Option.ne_none_iff_exists'.mp inTable with ⟨directory, inUse⟩
      rw [save_of_opened inUse] at saved
      rcases Outcome.exists_of_map saved with ⟨_, -, same⟩
      cases same
      rfl
  | _ => rfl

theorem ready (moves : archive.Moves saver changed next) (ready : archive.Ready) :
    changed.Ready := by
  intro inFolder
  rw [moves.opened_eq] at inFolder
  cases moves with
  | stepped _ _ _ steps => exact steps.isMade_eq.trans (ready inFolder)
  | saved _ inTable _ => exact absurd inFolder inTable
  | _ => exact ready inFolder

theorem undivided (moves : archive.Moves saver changed next)
    (undivided : saver.Undivided archive) : next.Undivided changed := by
  intro inTable unsettled
  rw [moves.opened_eq] at inTable
  cases moves with
  | rested => exact undivided inTable unsettled
  | handed => rfl
  | stepped _ inFolder _ _ => exact absurd inFolder inTable
  | saved | full => cases unsettled

/-- A turn leaves the archive as it is, or the saving has a number after it. -/
theorem archive_cases (moves : archive.Moves saver changed next) :
    changed = archive ∨ next.stage.number?.isSome = true := by
  cases moves with
  | rested | handed | full => exact .inl rfl
  | saved => exact .inr rfl
  | stepped _ _ _ steps =>
      generalize saver.stage = stage at steps
      cases steps with
      | counted | wrote | entered => exact .inr rfl
      | looked | lookedAgain | rested | gaveUp => exact .inl rfl

/-- A number that has been taken is kept. -/
theorem number_isSome (moves : archive.Moves saver changed next)
    (undivided : saver.Undivided archive) (taken : saver.stage.number?.isSome = true) :
    next.stage.number?.isSome = true := by
  cases moves with
  | rested => exact taken
  | saved => rfl
  | handed unsaved =>
      rw [unsaved] at taken
      cases taken
  | full unsettled inTable =>
      rw [undivided inTable unsettled] at taken
      cases taken
  | stepped _ _ _ steps =>
      rcases saver with ⟨saving, stage⟩
      cases steps <;> trivial

end Moves

end
end Archive

/-! ## Turns of a worker -/

namespace Worker

open Archive (Saver)

section

variable (all : List Workshop.Event) (position : Nat) (parameters : Parameters) (saver : Saver)

/-- The report in the hands of a worker is that of an analysis made in one of its turns. -/
def Reports (analysis : Analysis) : Prop :=
  ∃ request files, .working position request files ∈ all ∧
    parameters.analysis request files = .ok analysis ∧ saver.saving.report = analysis.toJson

/-- What the work on a job has come to: the number of the report, or a text when there was no
analysis or no number left. -/
inductive Comes : Except String Nat → Prop where
  | saved {analysis : Analysis} {number : Nat}
      (reports : Reports all position parameters saver analysis)
      (done : saver.stage = .done number) : Comes (.ok number)
  | faulty {request : Request} {files : Files} {fault : Fault}
      (mine : .working position request files ∈ all)
      (failed : parameters.analysis request files = .error fault)
      (unsaved : saver.stage = .waiting) : Comes (.error fault.message)
  | full {analysis : Analysis} (reports : Reports all position parameters saver analysis)
      (refused : saver.stage = .refused Archive.Table.full) :
      Comes (.error Archive.Table.full.message)

/-- How the progress of a job and the saving of its report go together. -/
inductive Matches : Phase → Progress → Prop where
  | waiting (unsaved : saver.stage = .waiting) : Matches .waiting .pending
  | analysing (unsaved : saver.stage = .waiting) : Matches .analysing .running
  | saving {analysis : Analysis} (reports : Reports all position parameters saver analysis)
      (unsettled : saver.stage.outcome? = none) : Matches .saving .running
  | recording {rest : List Entry} {progress : Progress} {result : Except String Nat}
      (comes : Comes all position parameters saver result) (few : rest.length ≤ 3)
      (left : ∀ moment, (rest.foldl Progress.enter progress).enter (.endedAt moment) =
        concluded parameters moment result) : Matches (.recording rest) progress
  | ended {request : Request} {files : Files} {result : Except String Nat}
      (comes : Comes all position parameters saver result)
      (mine : .working position request files ∈ all) :
      Matches .ended (concluded parameters request.now result)

end

/-- The worker at a position stands where its own turns among some events can have led to. -/
def Stands (all : List Workshop.Event) (position : Nat) (worker : Worker) : Prop :=
  Matches all position worker.job.parameters worker.saver worker.phase worker.job.progress

/-- How many turns a worker has left at most. -/
def left (worker : Worker) : Nat :=
  match worker.phase with
  | .waiting => 11
  | .analysing => 10
  | .saving => 4 + worker.saver.stage.left
  | .recording rest => rest.length + 1
  | .ended => 0

section

variable {all : List Workshop.Event} {position : Nat} {worker : Worker}

/-- When everything has been entered, the record says what the work has come to. -/
theorem foldl_entries (parameters : Parameters) (result : Except String Nat) (moment : Moment) :
    ((entries parameters result).foldl Progress.enter .running).enter (.endedAt moment) =
      concluded parameters moment result := by
  cases result with
  | error text => rfl
  | ok number =>
      rw [entries, concluded]
      cases parameters.wantsIndex <;> rfl

theorem length_entries_le (parameters : Parameters) (result : Except String Nat) :
    (entries parameters result).length ≤ 3 := by
  cases result with
  | error text => exact Nat.le_succ 2
  | ok number =>
      rw [entries]
      cases parameters.wantsIndex
      · exact Nat.le_succ 2
      · exact Nat.le_refl 3

theorem Stands.left_le (stands : worker.Stands all position) : worker.left ≤ 11 := by
  rcases worker with ⟨name, ⟨now, parameters, progress⟩, phase, saver⟩
  dsimp only [Stands] at stands
  cases stands with
  | saving => exact Nat.le_trans (Nat.add_le_add_left (Nat.sub_le 5 _) 4) (by decide)
  | recording _ few _ => exact Nat.le_trans (Nat.succ_le_succ few) (by decide)
  | _ => exact Nat.le_of_ble_eq_true rfl

theorem phase_of_left (none : worker.left = 0) : worker.phase = .ended := by
  rw [left] at none
  split at none
  case h_5 ended => exact ended
  all_goals omega

/-- Wherever a worker stands, it stands somewhere after its next turn and has one turn less
left. -/
theorem Stands.turn (stands : worker.Stands all position) {archive changed : Archive}
    (ready : archive.Ready) {request : Request} {files : Files}
    (mine : .working position request files ∈ all) {next : Worker}
    (turned : worker.turn request files archive = (changed, next)) :
    archive.Moves worker.saver changed next.saver ∧ next.Stands all position ∧
      next.left ≤ worker.left - 1 := by
  rcases worker with ⟨name, ⟨now, parameters, progress⟩, phase, saver⟩
  dsimp only [Stands] at stands
  cases stands with
  | waiting unsaved =>
      cases turned
      exact ⟨.rested, .analysing unsaved, Nat.le_refl _⟩
  | analysing unsaved =>
      cases made : parameters.analysis request files with
      | ok analysis =>
          simp only [Worker.turn, made] at turned
          cases turned
          exact ⟨.handed unsaved, .saving ⟨_, _, mine, made, rfl⟩ rfl, Nat.le_refl _⟩
      | error fault =>
          simp only [Worker.turn, made] at turned
          cases turned
          exact ⟨.rested, .recording (.faulty mine made unsaved) (length_entries_le parameters _)
            (foldl_entries parameters _), Nat.le_of_ble_eq_true rfl⟩
  | @saving analysis reports unsettled =>
      rcases reports with ⟨_, _, earlier, analysed, reported⟩
      rcases scoreOf_analysis analysed with ⟨scored, fitting⟩
      rw [← reported] at scored
      rcases Archive.exists_keep ready scored fitting unsettled with
        ⟨grown, stage, kept, moves, fewer, ends⟩
      have still : Reports all position parameters { saver with stage } analysis :=
        ⟨_, _, earlier, analysed, reported⟩
      cases settled : stage.outcome? with
      | none =>
          simp only [Worker.turn, kept, settled] at turned
          cases turned
          refine ⟨moves, .saving still settled, ?_⟩
          simp only [left]
          omega
      | some result =>
          simp only [Worker.turn, kept, settled] at turned
          cases turned
          have short := length_entries_le parameters result
          refine ⟨moves, .recording ?_ short (foldl_entries parameters _), ?_⟩
          · rcases ends result settled with ⟨number, done, rfl⟩ | ⟨refused, rfl⟩
            · exact .saved still done
            · exact .full still refused
          · simp only [left, conclude]
            omega
  | @recording rest _ _ comes few left =>
      cases rest with
      | cons entry rest =>
          cases turned
          exact ⟨.rested, .recording comes (Nat.le_of_succ_le few) left, Nat.le_refl _⟩
      | nil =>
          cases turned
          refine ⟨.rested, ?_, Nat.le_refl _⟩
          have entered : Matches all position parameters saver .ended _ := .ended comes mine
          rw [← left request.now] at entered
          exact entered
  | ended comes mine =>
      cases turned
      exact ⟨.rested, .ended comes mine, Nat.le_refl _⟩

end

/-! ## Workers who are alone -/

/-- The worker when everything has been entered. -/
def settle (worker : Worker) (moment : Moment) (result : Except String Nat) : Worker :=
  let progress := concluded worker.job.parameters moment result
  { worker with job := { worker.job with progress }, phase := .ended }

/-- Some turns of a worker that nobody comes between. -/
def turns (request : Request) (files : Files) : Nat → Archive × Worker → Archive × Worker
  | 0, state => state
  | count + 1, (archive, worker) => turns request files count (worker.turn request files archive)

section

variable {request : Request} {files : Files} {archive : Archive}

theorem turns_add (first second : Nat) (request : Request) (files : Files)
    (state : Archive × Worker) :
    turns request files (first + second) state =
      turns request files second (turns request files first state) := by
  induction first generalizing state with
  | zero => rw [Nat.zero_add, turns]
  | succ first ih =>
      rw [Nat.add_right_comm, turns, turns]
      exact ih _

theorem turns_ended (count : Nat) {worker : Worker} (phase : worker.phase = .ended) :
    turns request files count (archive, worker) = (archive, worker) := by
  have rested : worker.turn request files archive = (archive, worker) := by
    simp only [turn, phase]
  induction count with
  | zero => rfl
  | succ count ih => rw [turns, rested, ih]

/-- What is entered after the work takes four turns at most. -/
theorem turns_of_conclude {first : Nat} {state : Archive × Worker} {worker : Worker}
    {result : Except String Nat} (few : first ≤ 7)
    (reached : turns request files first state = (archive, worker.conclude result))
    (running : worker.job.progress = .running) :
    turns request files 11 state = (archive, worker.settle request.now result) := by
  have four : turns request files 4 (archive, worker.conclude result) =
      (archive, worker.settle request.now result) := by
    rcases worker with ⟨name, ⟨now, parameters, progress⟩, phase, saver⟩
    cases running
    cases result with
    | error text => rfl
    | ok number =>
        rw [conclude, settle, entries, concluded]
        cases parameters.wantsIndex <;> rfl
  rw [show 11 = first + (4 + (7 - first)) by omega, turns_add, reached, turns_add, four]
  exact turns_ended _ rfl

/-- A saving that nobody comes between takes five turns at most, and is what it is when it is made
at once. -/
theorem exists_turns_saving (ready : archive.Ready) (name : String) (job : Job)
    (saving : Archive.Saving) :
    ∃ count ≤ 5, ∃ saver, turns request files count
        (archive, ⟨name, job, .saving, ⟨saving, .waiting⟩⟩) =
      match archive.save saving.moment saving.report with
      | .ok (number, grown) => (grown, (Worker.mk name job .saving saver).conclude (.ok number))
      | .error fault =>
          (archive, (Worker.mk name job .saving saver).conclude (.error fault.message)) := by
  cases inUse : archive.opened with
  | none =>
      rcases archive with ⟨hasDatabases, tables, opened, ⟨isMade, catalog, documents⟩⟩
      cases inUse
      cases ready rfl
      exact ⟨5, Nat.le_refl 5, _, rfl⟩
  | some directory =>
      refine ⟨1, by decide, ?_⟩
      simp only [turns, turn, Archive.Saver.keep, inUse]
      cases archive.save saving.moment saving.report with
      | ok result => exact ⟨_, rfl⟩
      | error fault => exact ⟨_, rfl⟩

/-- Eleven turns of a worker that nobody comes between are the work of the job. -/
theorem exists_turns_begin (request : Request) (files : Files)
    (parameters : Parameters) (ready : archive.Ready) (name : String) (now : Moment) :
    ∃ saver, turns request files 11 (archive, .begin name now parameters) =
      ((work request files archive parameters).2, ⟨name, ⟨now, parameters,
        (work request files archive parameters).1⟩, .ended, saver⟩) := by
  rw [work]
  cases made : ofRepository request files parameters.path parameters.languages
      parameters.wantsIndex with
  | error fault =>
      have reached : turns request files 2 (archive, .begin name now parameters) =
          (archive, (Worker.mk name ⟨now, parameters, .running⟩ .analysing
            ⟨⟨now, .null⟩, .waiting⟩).conclude (.error fault.message)) := by
        simp only [turns, turn, begin, Parameters.analysis, enter, made]
        rfl
      exact ⟨_, turns_of_conclude (by decide) reached rfl⟩
  | ok analysis =>
      have handed : turns request files 2 (archive, .begin name now parameters) =
          (archive, ⟨name, ⟨now, parameters, .running⟩, .saving,
            ⟨⟨request.now, analysis.toJson⟩, .waiting⟩⟩) := by
        simp only [turns, turn, begin, Parameters.analysis, enter, made]
        rfl
      rcases exists_turns_saving ready name ⟨now, parameters, .running⟩
        ⟨request.now, analysis.toJson⟩ with ⟨count, few, saver, saved⟩
      have reached := turns_add 2 count request files (archive, .begin name now parameters)
      rw [handed, saved] at reached
      simp only [bind, Except.bind]
      cases outcome : archive.save request.now analysis.toJson with
      | ok result =>
          rw [outcome] at reached
          exact ⟨_, turns_of_conclude (by omega) reached rfl⟩
      | error fault =>
          rw [outcome] at reached
          exact ⟨_, turns_of_conclude (by omega) reached rfl⟩

end
end Worker

theorem Jobs.put_append {jobs : Jobs} {name : String} (fresh : jobs.find? name = none) (job : Job)
    (later : Jobs) : put name job (jobs ++ later) = jobs ++ put name job later := by
  induction jobs with
  | nil => rfl
  | cons entry rest ih =>
      rcases entry with ⟨key, held⟩
      have apart : (name == key) = false := by
        cases same : name == key with
        | false => rfl
        | true => simp [find?, List.lookup_cons, same] at fresh
      rw [find?, List.lookup_cons, apart] at fresh
      rw [List.cons_append, put, if_neg (ne_of_beq_false apart).symm, ih fresh, List.cons_append]

namespace Workshop

theorem after_last (archive : Archive) (earlier : List Worker) (worker : Worker)
    (request : Request) (files : Files) (count : Nat) :
    (Workshop.mk archive (earlier ++ [worker])).after
        (List.replicate count (.working earlier.length request files)) =
      let state := Worker.turns request files count (archive, worker)
      ⟨state.1, earlier ++ [state.2]⟩ := by
  induction count generalizing archive worker with
  | zero => rfl
  | succ count ih =>
      have first : (Workshop.mk archive (earlier ++ [worker])).perform
          (.working earlier.length request files) =
            ⟨(worker.turn request files archive).1,
              earlier ++ [(worker.turn request files archive).2]⟩ := by
        simp [perform]
      rw [List.replicate_succ, after_cons, first]
      exact ih _ _

/-- A job that is run at once is a job whose worker takes all of its turns right after it has been
started. -/
theorem run_start {workshop : Workshop} (ready : workshop.archive.Ready) {name : String}
    (fresh : workshop.jobs.find? name = none) (request : Request) (files : Files)
    (parameters : Parameters) :
    let next := workshop.after (.starting name request.now parameters ::
      List.replicate 11 (.working workshop.workers.length request files))
    (workshop.jobs.start name request.now parameters).run request files workshop.archive name =
      (next.jobs, next.archive) := by
  rcases Worker.exists_turns_begin request files parameters ready name request.now with
    ⟨saver, worked⟩
  rw [after_cons, perform, after_last, worked]
  have started : workshop.jobs.start name request.now parameters =
      workshop.jobs ++ [(name, ⟨request.now, parameters, .pending⟩)] := by
    have placed := Jobs.put_append fresh ⟨request.now, parameters, .pending⟩ []
    rwa [List.append_nil] at placed
  have found : Jobs.find? (workshop.jobs ++ [(name, ⟨request.now, parameters, .pending⟩)]) name =
      some ⟨request.now, parameters, .pending⟩ := by
    rw [Jobs.find?] at fresh ⊢
    rw [List.lookup_append, fresh, List.lookup_cons_self]
    rfl
  rw [started, Jobs.run, found]
  simp only [Jobs.put_append fresh, Jobs.put, if_true]
  rw [jobs, jobs, List.map_append]
  rfl

end Workshop
end CodeQuality
