import CodeQuality.Proofs.Analysis.Aggregation
import CodeQuality.Proofs.Jobs.Ledger
import Mathlib.Logic.Basic

namespace CodeQuality

/-!
The life of a job.

Names of new jobs are new.  Workers take turns in whatever order, and each has ended
after eleven turns of its own.  Then its job has finished or has failed, and the record
says which.  A job that has failed has added nothing to the archive.

A job that has finished has the number of a report.  That this number is no other job's,
and that it leads to the report of the job's own analysis, holds when no writing of the
catalog was stale.  With a table it always does.  In a folder, two workers that read the
catalog before one of them has written it are enough to lose a report.
-/

/-- Where one more is put at the end, everyone else is where they were. -/
theorem getElem?_concat_cases {α : Type} {members : List α} {index : Nat} {newcomer member : α}
    (there : (members ++ [newcomer])[index]? = some member) :
    (index = members.length ∧ member = newcomer) ∨ members[index]? = some member := by
  by_cases old : index < members.length
  · exact .inr ((List.getElem?_append_left old).symm.trans there)
  · rw [List.getElem?_append_right (Nat.le_of_not_lt old), List.getElem?_singleton] at there
    split at there <;> cases there
    exact .inl ⟨by omega, rfl⟩

/-- What is said of a job when it is started stays with its worker. -/
def Worker.order (worker : Worker) : String × Moment × Job.Parameters :=
  (worker.name, worker.job.startedAt, worker.job.parameters)

theorem Worker.order_turn (request : Analysis.Request) (files : Files) (archive : Archive)
    (worker : Worker) : (worker.turn request files archive).2.order = worker.order := by
  rw [turn]
  split
  case h_2 => split <;> rfl
  case h_3 => dsimp only; split <;> rfl
  all_goals rfl

theorem Job.element_report (job : Job) :
    job.toJson.element "report_id" = .ok (.ofNat? job.progress.report?) := rfl

namespace Workshop

/-! ## Single events -/

/-- What an event does to a workshop. -/
inductive Takes (workshop : Workshop) : Event → Workshop → Prop where
  | started {name : String} {now : Moment} {parameters : Job.Parameters} :
      Takes workshop (.starting name now parameters)
        { workshop with workers := workshop.workers ++ [.begin name now parameters] }
  | idle {position : Nat} {request : Analysis.Request} {files : Files}
      (absent : workshop.workers[position]? = none) :
      Takes workshop (.working position request files) workshop
  | worked {position : Nat} {request : Analysis.Request} {files : Files} {worker next : Worker}
      {changed : Archive} (there : workshop.workers[position]? = some worker)
      (turned : worker.turn request files workshop.archive = (changed, next)) :
      Takes workshop (.working position request files)
        ⟨changed, workshop.workers.set position next⟩
  | read {name : String} : Takes workshop (.reading name) workshop

theorem takes_perform (workshop : Workshop) (event : Event) :
    workshop.Takes event (workshop.perform event) := by
  cases event with
  | starting name now parameters => exact .started
  | reading name => exact .read
  | working position request files =>
      rw [perform]
      cases there : workshop.workers[position]? with
      | none => exact .idle there
      | some worker => exact .worked there rfl

/-- What holds of a workshop after some events, all of which are among given ones. -/
structure Sound (start : Archive) (all : List Event) (isFresh : Bool) (workshop : Workshop) :
    Prop where
  ready : workshop.archive.Ready
  each : ∀ {position : Nat} {worker : Worker}, workshop.workers[position]? = some worker →
    worker.Stands all position ∧ worker.saver.Undivided workshop.archive
  sameUse : workshop.archive.opened = start.opened
  tables : start.opened ≠ none → isFresh = true
  ledger : isFresh = true →
    start.Ledger workshop.archive (workshop.workers.map Worker.saver)

section

variable {start : Archive} {all events : List Event} {isFresh : Bool} {workshop next : Workshop}
  {event : Event} {position : Nat} {worker : Worker}

/-- With a table no writing is stale, because no catalog is written. -/
theorem Sound.isStale_eq (sound : workshop.Sound start all isFresh)
    (inTable : start.opened ≠ none) (event : Event) : workshop.isStale event = false := by
  cases event with
  | starting | reading => rfl
  | working position request files =>
      rw [isStale]
      cases there : workshop.workers[position]? with
      | none => rfl
      | some worker => exact (sound.each there).2.isStale_eq (sound.sameUse ▸ inTable) _

theorem getElem?_savers (there : workshop.workers[position]? = some worker) :
    (workshop.workers.map Worker.saver)[position]? = some worker.saver := by
  rw [List.getElem?_map, there]
  rfl

/-- An event keeps what holds at all times. -/
theorem Takes.sound (takes : workshop.Takes event next) (sound : workshop.Sound start all isFresh)
    (member : event ∈ all) : next.Sound start all (isFresh && !workshop.isStale event) := by
  have always := sound.isStale_eq
  cases takes with
  | idle absent =>
      rw [isStale, absent]
      simpa using sound
  | read => simpa [isStale] using sound
  | started =>
      refine ⟨sound.ready, ?_, sound.sameUse, ?_, ?_⟩
      · intro position worker there
        rcases getElem?_concat_cases there with ⟨-, rfl⟩ | old
        · exact ⟨.waiting rfl, fun _ _ => rfl⟩
        · exact sound.each old
      · simpa [isStale] using sound.tables
      · intro fresh
        apply (sound.ledger (by simpa [isStale] using fresh)).of_waiting
        intro position saver there
        rw [List.map_append] at there
        rcases getElem?_concat_cases there with ⟨-, rfl⟩ | old
        · exact .inl rfl
        · exact .inr old
  | worked there turned =>
      rcases (sound.each there).1.turn sound.ready member turned with ⟨moves, stands, -⟩
      refine ⟨moves.ready sound.ready, ?_, moves.opened_eq.trans sound.sameUse, ?_, ?_⟩
      · intro index other present
        rcases Archive.Crowd.getElem?_set_cases present with ⟨rfl, rfl⟩ | ⟨-, old⟩
        · exact ⟨stands, moves.undivided (sound.each there).2⟩
        · rcases sound.each old with ⟨stood, undivided⟩
          exact ⟨stood, fun inTable => undivided (moves.opened_eq ▸ inTable)⟩
      · intro inTable
        rw [sound.tables inTable, always inTable]
        rfl
      · intro fresh
        rw [Bool.and_eq_true, Bool.not_eq_true', isStale, there] at fresh
        rw [List.map_set]
        exact (sound.ledger fresh.1).moves sound.ready (getElem?_savers there) moves fresh.2

/-- What an event means for the worker at a position. -/
theorem Takes.exists_worker (takes : workshop.Takes event next)
    (sound : workshop.Sound start all isFresh) (member : event ∈ all)
    (there : workshop.workers[position]? = some worker) :
    ∃ later, next.workers[position]? = some later ∧
      later.left ≤ worker.left - (event.turn? position).toList.length ∧
      (worker.saver.stage.number?.isSome = true → later.saver.stage.number?.isSome = true) ∧
      (event.turn? position = none → later = worker) := by
  by_cases own : ∃ request files, event = .working position request files
  · rcases own with ⟨request, files, rfl⟩
    rw [Event.turn?, if_pos rfl]
    cases takes with
    | idle absent =>
        rw [absent] at there
        cases there
    | @worked _ _ _ _ later _ found turned =>
        rw [there] at found
        cases found
        rcases sound.each there with ⟨stands, undivided⟩
        rcases stands.turn sound.ready member turned with ⟨moves, -, fewer⟩
        have placed : (workshop.workers.set position later)[position]? = some later :=
          List.getElem?_set_self (List.getElem?_eq_some_iff.mp there).1
        exact ⟨later, placed, fewer, moves.number_isSome undivided, by rintro ⟨⟩⟩
  · have others : event.turn? position = none := by
      cases event with
      | starting | reading => rfl
      | working index request files =>
          exact if_neg fun same => own ⟨request, files, by rw [same]⟩
    have still : next.workers[position]? = some worker := by
      cases takes with
      | idle | read => exact there
      | started =>
          exact (List.getElem?_append_left (List.getElem?_eq_some_iff.mp there).1).trans there
      | @worked index request files =>
          refine (List.getElem?_set_ne ?_).trans there
          rintro rfl
          exact own ⟨_, _, rfl⟩
    rw [others]
    exact ⟨worker, still, Nat.le_refl _, id, fun _ => rfl⟩

theorem Takes.orders (takes : workshop.Takes event next) :
    next.workers.map Worker.order = workshop.workers.map Worker.order ++ event.started?.toList := by
  cases takes with
  | idle | read => exact (List.append_nil _).symm
  | started => exact List.map_append
  | @worked position request files worker later _ there turned =>
      have same := Worker.order_turn request files workshop.archive worker
      rw [turned] at same
      have said : (workshop.workers.map Worker.order)[position]? = some worker.order := by
        rw [List.getElem?_map, there]
        rfl
      rcases List.getElem?_eq_some_iff.mp said with ⟨inside, found⟩
      rw [List.map_set, same, ← found, List.set_getElem_self]
      exact (List.append_nil _).symm

/-! ## Series of events -/

theorem Sound.after (sound : workshop.Sound start all isFresh) (members : events ⊆ all) :
    (workshop.after events).Sound start all (isFresh && workshop.neverStale events) := by
  induction events generalizing workshop isFresh with
  | nil =>
      rw [neverStale, Bool.and_true]
      exact sound
  | cons event rest ih =>
      rw [List.cons_subset] at members
      have later := ih ((takes_perform workshop event).sound sound members.1) members.2
      rwa [Bool.and_assoc] at later

theorem Sound.worker_after (sound : workshop.Sound start all isFresh) (members : events ⊆ all)
    (there : workshop.workers[position]? = some worker) :
    ∃ later, (workshop.after events).workers[position]? = some later ∧
      later.left ≤ worker.left - (events.filterMap (Event.turn? position)).length ∧
      (worker.saver.stage.number?.isSome = true →
        later.saver.stage.number?.isSome = true) := by
  induction events generalizing workshop isFresh worker with
  | nil => exact ⟨worker, there, Nat.le_refl _, id⟩
  | cons event rest ih =>
      rw [List.cons_subset] at members
      have takes := takes_perform workshop event
      rcases takes.exists_worker sound members.1 there with ⟨next, found, fewer, taken, -⟩
      rcases ih (takes.sound sound members.1) members.2 found with ⟨later, last, fewest, takenLast⟩
      refine ⟨later, last, ?_, fun has => takenLast (taken has)⟩
      rw [List.filterMap_cons]
      cases turned : event.turn? position <;> simp only [turned, Option.toList,
        List.length_cons, List.length_nil] at fewer ⊢ <;> omega

end

theorem orders_after (workshop : Workshop) (events : List Event) :
    (workshop.after events).workers.map Worker.order =
      workshop.workers.map Worker.order ++ events.filterMap Event.started? := by
  induction events generalizing workshop with
  | nil => exact (List.append_nil _).symm
  | cons event rest ih =>
      rw [after_cons, ih, (takes_perform workshop event).orders, List.append_assoc,
        List.filterMap_cons]
      cases event.started? <;> rfl

/-- Under different names everyone's record is found. -/
theorem lookup_of_nodup {workers : List Worker} (apart : (workers.map Worker.name).Nodup)
    {worker : Worker} (member : worker ∈ workers) :
    (workers.map fun worker => (worker.name, worker.job)).lookup worker.name = some worker.job := by
  induction workers with
  | nil => cases member
  | cons first rest ih =>
      rw [List.map_cons, List.nodup_cons] at apart
      rw [List.map_cons, List.lookup_cons]
      rcases List.mem_cons.mp member with rfl | later
      · rw [beq_self_eq_true]
      · have different : worker.name ≠ first.name := fun same =>
          apart.1 (same ▸ List.mem_map_of_mem later)
        rw [beq_false_of_ne different]
        exact ih apart.2 later

theorem Orderly.of_append {before later : List Event} (orderly : Orderly (before ++ later)) :
    Orderly before := by
  rw [Orderly, List.filterMap_append, List.map_append] at orderly
  exact orderly.of_append_left

theorem record_eq {archive : Archive} {events : List Event} (orderly : Orderly events)
    {worker : Worker} (member : worker ∈ ((around archive).after events).workers) :
    ((around archive).after events).jobs.record worker.name = worker.job.toJson := by
  have names : ((around archive).after events).workers.map Worker.name =
      (events.filterMap Event.started?).map Prod.fst := by
    have orders := congrArg (List.map Prod.fst) (orders_after (around archive) events)
    rw [List.map_map] at orders
    exact orders
  have found := lookup_of_nodup (names ▸ orderly) member
  rw [Jobs.record, Jobs.find?, jobs, found]

/-! ## The record of a job whose worker has ended -/

/-- The record of a job that has finished has the number of its report, and a note about the index
when there was to be one. -/
structure Finished (record : Json) (parameters : Job.Parameters) (moment : Moment)
    (number : Nat) : Prop where
  status : record.element "status" = .ok (.str "finished")
  error : record.element "error" = .ok .null
  finishedAt : record.element "finished_at" = .ok (.str moment.text)
  params : record.element "params" = .ok parameters.toJson
  report : record.element "report_id" = .ok (.nat number)
  indexError : (∃ text, record.element "index_error" = .ok (.str text)) ↔
    parameters.wantsIndex = true

/-- The record of a job that has failed says why. -/
structure Failed (record : Json) (parameters : Job.Parameters) (moment : Moment)
    (error : String) : Prop where
  status : record.element "status" = .ok (.str "failed")
  error : record.element "error" = .ok (.str error)
  finishedAt : record.element "finished_at" = .ok (.str moment.text)
  params : record.element "params" = .ok parameters.toJson
  unreported : record.element "report_id" = .ok .null
  unindexed : record.element "index_error" = .error (.missingKey "index_error")

theorem finished_toJson (created : Moment) (parameters : Job.Parameters) (moment : Moment)
    (number : Nat) :
    Finished (Job.toJson ⟨created, parameters, Job.concluded parameters moment (.ok number)⟩)
      parameters moment number := by
  rw [Job.concluded]
  cases wanted : parameters.wantsIndex with
  | true => exact ⟨rfl, rfl, rfl, rfl, rfl, fun _ => wanted, fun _ => ⟨_, rfl⟩⟩
  | false =>
      refine ⟨rfl, rfl, rfl, rfl, rfl, ?_, ?_⟩
      · rintro ⟨text, said⟩
        cases said
      · intro wants
        rw [wanted] at wants
        cases wants

theorem failed_toJson (created : Moment) (parameters : Job.Parameters) (moment : Moment)
    (error : String) :
    Failed (Job.toJson ⟨created, parameters, Job.concluded parameters moment (.error error)⟩)
      parameters moment error :=
  ⟨rfl, rfl, rfl, rfl, rfl, rfl⟩

theorem Finished.not_failed {record : Json} {parameters : Job.Parameters} {moment : Moment}
    {number : Nat} (finished : Finished record parameters moment number) {error : String} :
    ¬ Failed record parameters moment error := by
  intro failed
  have same := finished.status.symm.trans failed.status
  simp at same

/-- How a job has ended whose worker is at a position: it has finished with the report of an
analysis that was made in one of the worker's turns, or it has failed and none of these turns has
changed the archive. -/
def Settled (start : Workshop) (events : List Event) (position : Nat) (name : String)
    (parameters : Job.Parameters) : Prop :=
  let final := start.after events
  let turns := events.filterMap (Event.turn? position)
  ∃ last ∈ turns, Xor
    (∃ analysis number, (∃ made ∈ turns, parameters.analysis made.1 made.2 = .ok analysis) ∧
      Finished (final.jobs.record name) parameters last.1.now number ∧
      (start.neverStale events = true → final.archive.get (.nat number) = .ok analysis.toJson))
    (∃ fault : Fault, ((∃ made ∈ turns, parameters.analysis made.1 made.2 = .error fault) ∨
        fault = Archive.Table.full) ∧
      Failed (final.jobs.record name) parameters last.1.now fault.message ∧
      ∀ before request files later, events = before ++ .working position request files :: later →
        ((start.after before).perform (.working position request files)).archive =
          (start.after before).archive)

theorem mem_turns {events : List Event} {position : Nat} {request : Analysis.Request}
    {files : Files} (member : .working position request files ∈ events) :
    (request, files) ∈ events.filterMap (Event.turn? position) :=
  List.mem_filterMap.mpr ⟨_, member, if_pos rfl⟩

/-- A workshop without jobs around an opened archive. -/
theorem sound_around {archive : Archive} {savings : List Archive.Saving}
    (isOpen : archive.Opened savings) (all : List Event) :
    (around archive).Sound archive all true := by
  have ready : archive.Ready := by
    intro inFolder
    cases isOpen with
    | folder reached =>
        cases reached with
        | opened _ _ holds => exact holds.made
    | table _ tabulated _ =>
        rcases tabulated with ⟨directory, inUse, -⟩
        rw [inUse] at inFolder
        cases inFolder
  refine ⟨ready, ?_, rfl, fun _ => rfl, fun _ => .of_opened isOpen⟩
  intro position worker there
  cases there

section

variable {archive : Archive} {savings : List Archive.Saving} {events : List Event} {position : Nat}
  {worker : Worker}

theorem sound_after (isOpen : archive.Opened savings) (events : List Event) :
    ((around archive).after events).Sound archive events ((around archive).neverStale events) :=
  (sound_around isOpen events).after (List.Subset.refl events)

/-- The turns of a worker whose saving has no number have not changed the archive. -/
theorem archive_perform_eq (isOpen : archive.Opened savings)
    (there : ((around archive).after events).workers[position]? = some worker)
    (unnumbered : worker.saver.stage.number? = none) {before later : List Event}
    {request : Analysis.Request} {files : Files}
    (whole : events = before ++ .working position request files :: later) :
    (((around archive).after before).perform (.working position request files)).archive =
      ((around archive).after before).archive := by
  have members : before ++ .working position request files :: later ⊆ events :=
    whole ▸ List.Subset.refl events
  rw [List.append_subset, List.cons_subset] at members
  rcases members with ⟨earlier, own, rest⟩
  have sound := (sound_around isOpen events).after earlier
  rw [whole, after_append, after_cons] at there
  generalize (around archive).after before = workshop at sound there ⊢
  have takes := takes_perform workshop (.working position request files)
  have soundNext := takes.sound sound own
  generalize workshop.perform (.working position request files) = next at takes soundNext there ⊢
  cases takes with
  | idle absent => rfl
  | @worked _ _ _ _ moved _ found turned =>
      rcases ((sound.each found).1.turn sound.ready own turned).1.archive_cases with same | taken
      · exact same
      · -- a number would still be there at the end
        have placed : (workshop.workers.set position moved)[position]? = some moved :=
          List.getElem?_set_self (List.getElem?_eq_some_iff.mp found).1
        rcases soundNext.worker_after rest placed with ⟨last, final, -, kept⟩
        rw [there] at final
        cases final
        rw [unnumbered] at kept
        cases kept taken

theorem of_ended {all : List Event} (stands : worker.Stands all position)
    (ended : worker.phase = .ended) :
    ∃ request files result, .working position request files ∈ all ∧
      worker.job.progress = Job.concluded worker.job.parameters request.now result ∧
      Worker.Comes all position worker.job.parameters worker.saver result := by
  rcases worker with ⟨name, ⟨created, parameters, progress⟩, phase, saver⟩
  dsimp only [Worker.Stands] at stands ended
  subst ended
  cases stands with
  | ended comes mine => exact ⟨_, _, _, mine, rfl, comes⟩

theorem settled_of_ended (isOpen : archive.Opened savings) (orderly : Orderly events)
    (there : ((around archive).after events).workers[position]? = some worker)
    (ended : worker.phase = .ended) :
    Settled (around archive) events position worker.name worker.job.parameters := by
  have sound := sound_after isOpen events
  rcases of_ended (sound.each there).1 ended with ⟨last, files, result, mine, progress, comes⟩
  have record : ((around archive).after events).jobs.record worker.name = Job.toJson
      ⟨worker.job.startedAt, worker.job.parameters,
        Job.concluded worker.job.parameters last.now result⟩ := by
    rw [record_eq orderly (List.mem_of_getElem? there), ← progress]
  have failing : ∀ fault : Fault, result = .error fault.message →
      worker.saver.stage.number? = none →
      ((∃ made ∈ events.filterMap (Event.turn? position),
        worker.job.parameters.analysis made.1 made.2 = .error fault) ∨
          fault = Archive.Table.full) →
      Settled (around archive) events position worker.name worker.job.parameters := by
    rintro fault rfl unnumbered cause
    have failed := failed_toJson worker.job.startedAt worker.job.parameters last.now fault.message
    rw [← record] at failed
    refine ⟨_, mem_turns mine, .inr ⟨⟨fault, cause, failed, ?_⟩, ?_⟩⟩
    · intro before request files later whole
      exact archive_perform_eq isOpen there unnumbered whole
    · rintro ⟨_, _, -, finished, -⟩
      exact finished.not_failed failed
  cases comes with
  | faulty own failed unsaved =>
      exact failing _ rfl (by rw [unsaved]; rfl) (.inl ⟨_, mem_turns own, failed⟩)
  | full reports refused => exact failing _ rfl (by rw [refused]; rfl) (.inr rfl)
  | @saved analysis number reports done =>
      rcases reports with ⟨request, earlier, own, analysed, reported⟩
      have finished := finished_toJson worker.job.startedAt worker.job.parameters last.now number
      rw [← record] at finished
      refine ⟨_, mem_turns mine,
        .inl ⟨⟨analysis, number, ⟨_, mem_turns own, analysed⟩, finished, ?_⟩, ?_⟩⟩
      · intro fresh
        rw [← reported]
        exact (sound.ledger fresh).get_done (getElem?_savers there) done
      · rintro ⟨_, -, failed, -⟩
        exact finished.not_failed failed

/-- The number in the record of a job that has ended is that of its saving. -/
theorem number?_of_record (isOpen : archive.Opened savings) (orderly : Orderly events)
    (there : ((around archive).after events).workers[position]? = some worker)
    (ended : worker.phase = .ended) {number : Nat}
    (said : (((around archive).after events).jobs.record worker.name).element "report_id" =
      .ok (.nat number)) : worker.saver.stage.number? = some number := by
  rcases of_ended ((sound_after isOpen events).each there).1 ended with
    ⟨last, files, result, -, progress, comes⟩
  rw [record_eq orderly (List.mem_of_getElem? there), Job.element_report, progress] at said
  cases comes with
  | faulty => cases said
  | full => cases said
  | @saved _ own _ done =>
      have same : Json.nat own = Json.nat number := Except.ok.inj said
      rw [Json.nat, Json.nat, Json.int.injEq] at same
      rw [done, ← Int.ofNat_inj.mp same]
      rfl

/-- What is promised of the jobs after some events. -/
structure Accounted (start : Workshop) (events : List Event) : Prop where
  /-- Every job that was started has a worker, which goes by what was said of the job. -/
  started : (start.after events).workers.map Worker.order = events.filterMap Event.started?
  /-- A worker has ended after eleven turns. -/
  ends : ∀ {before later position}, events = before ++ later →
    position < (start.after before).workers.length →
    11 ≤ (later.filterMap (Event.turn? position)).length →
    ∃ worker, (start.after events).workers[position]? = some worker ∧ worker.phase = .ended
  /-- A job whose worker has ended has finished or has failed. -/
  settled : ∀ {position worker}, (start.after events).workers[position]? = some worker →
    worker.phase = .ended → Settled start events position worker.name worker.job.parameters
  /-- With a table no writing is stale. -/
  tables : start.archive.opened ≠ none → start.neverStale events = true
  /-- When no writing was stale, no two jobs that have finished have the same report. -/
  apart : start.neverStale events = true →
    ∀ {first second : Nat} {worker other : Worker} {number : Nat},
    (start.after events).workers[first]? = some worker → worker.phase = .ended →
    (start.after events).workers[second]? = some other → other.phase = .ended →
    ((start.after events).jobs.record worker.name).element "report_id" = .ok (.nat number) →
    ((start.after events).jobs.record other.name).element "report_id" = .ok (.nat number) →
    first = second
  /-- When no writing was stale, reports that were there are found as before. -/
  kept : start.neverStale events = true → ∀ {id : Int} {report},
    start.archive.get (.int id) = .ok report →
    (start.after events).archive.get (.int id) = .ok report
  /-- Starting a job, reading it or working on it changes no other record. -/
  undisturbed : ∀ {before event later position worker}, events = before ++ event :: later →
    (start.after before).workers[position]? = some worker → event.turn? position = none →
    ((start.after before).perform event).jobs.record worker.name =
      (start.after before).jobs.record worker.name
  /-- Starting a job or reading it does not change the archive. -/
  idle : ∀ {event : Event}, (∀ position, event.turn? position = none) →
    ((start.after events).perform event).archive = (start.after events).archive

end

/-- Jobs are accounted for, whatever has been saved in the archive before it was opened, whichever
jobs are started and looked at since, and in whatever order their workers take turns. -/
theorem jobs_are_accounted_for (hasDatabases : Bool) (requests : List Archive.Request)
    (directory : Files.Path) {events : List Event} (orderly : Orderly events) :
    Accounted (around (((Archive.unused hasDatabases).after requests).openAt directory)) events := by
  rcases Archive.exists_opened hasDatabases requests directory with ⟨savings, isOpen⟩
  generalize ((Archive.unused hasDatabases).after requests).openAt directory = archive at isOpen
  have sound := sound_after isOpen events
  refine ⟨orders_after _ events, ?_, settled_of_ended isOpen orderly, sound.tables, ?_,
    fun fresh _ _ => (sound.ledger fresh).get_of_start, ?_, ?_⟩
  · intro before later position whole inside enough
    have members : before ++ later ⊆ events := whole ▸ List.Subset.refl events
    rw [List.append_subset] at members
    have earlier := (sound_around isOpen events).after members.1
    have there := List.getElem?_eq_getElem inside
    rcases earlier.worker_after members.2 there with ⟨worker, last, fewer, -⟩
    have most := (earlier.each there).1.left_le
    rw [whole, after_append]
    exact ⟨worker, last, Worker.phase_of_left (by omega)⟩
  · intro fresh first second worker other number thereFirst endedFirst thereSecond endedSecond
      saidFirst saidSecond
    exact (sound.ledger fresh).apart (getElem?_savers thereFirst) (getElem?_savers thereSecond)
      (number?_of_record isOpen orderly thereFirst endedFirst saidFirst)
      (number?_of_record isOpen orderly thereSecond endedSecond saidSecond)
  · intro before event later position worker whole there others
    rw [List.append_cons] at whole
    have members : before ++ [event] ++ later ⊆ events := whole ▸ List.Subset.refl events
    rw [List.append_subset, List.append_subset, List.cons_subset] at members
    have earlier := (sound_around isOpen events).after members.1.1
    have takes := takes_perform ((around archive).after before) event
    rcases takes.exists_worker earlier members.1.2.1 there with ⟨later, still, -, -, same⟩
    rw [same others] at still
    have next : ((around archive).after before).perform event =
        (around archive).after (before ++ [event]) := by
      rw [after_append]
      rfl
    rw [whole] at orderly
    rw [next] at still ⊢
    rw [record_eq orderly.of_append (List.mem_of_getElem? still),
      record_eq orderly.of_append.of_append (List.mem_of_getElem? there)]
  · intro event unworked
    cases event with
    | starting | reading => rfl
    | working position request files =>
        have own := unworked position
        rw [Event.turn?, if_pos rfl] at own
        cases own

/-! ## Jobs at the same time -/

section

open Analysis Archive.Folder

/-- A job for a language that nobody knows. -/
def strangeJob (language : String) (isIndexed : Bool) : Job.Parameters :=
  ⟨"/", .texts [language], .bool isIndexed, .bool true⟩

/-- A job whose languages are no list. -/
def misguidedJob : Job.Parameters := ⟨"/", .int 3, .bool true, .bool true⟩

/-- Turns of the workers at some positions. -/
def turnsOf (positions : List Nat) : List Event :=
  positions.map (.working · plainRequest twoLanguageFiles)

/-- Three jobs are started.  Two of them come as far as a report, and the third one fails. -/
def begun : List Event :=
  [.starting "a" plainRequest.now (strangeJob "cobol" true),
    .starting "b" plainRequest.now (strangeJob "ada" false),
    .starting "c" plainRequest.now misguidedJob] ++ turnsOf [0, 1, 2, 0, 1, 2]

/-- The workers enter what their work has come to. -/
def recorded : List Event := turnsOf [2, 1, 0, 2, 1, 0, 2, 1, 0, 0]

/-- The workshop of three jobs, two of which have a report. -/
def handed (first second : Json) : Workshop :=
  ⟨((Archive.unused false).after []).openAt [],
    [⟨"a", ⟨plainRequest.now, strangeJob "cobol" true, .running⟩, .saving,
        ⟨⟨plainRequest.now, first⟩, .waiting⟩⟩,
      ⟨"b", ⟨plainRequest.now, strangeJob "ada" false, .running⟩, .saving,
        ⟨⟨plainRequest.now, second⟩, .waiting⟩⟩,
      ⟨"c", ⟨plainRequest.now, misguidedJob, .running⟩,
        .recording (Job.entries misguidedJob (.error "'int' object is not iterable")),
        ⟨⟨plainRequest.now, .null⟩, .waiting⟩⟩]⟩

theorem exists_strange {language : String} (isIndexed : Bool)
    (listed : RequestedLanguage.list (.texts [language]) = .ok [.unknown language]) :
    ∃ analysis, (strangeJob language isIndexed).analysis plainRequest twoLanguageFiles =
        .ok analysis ∧ analysis.issues.map (·.finding.id) = ["unknown-" ++ language] := by
  have rooted : ∃ listing, twoLanguageFiles.root = .dir listing := ⟨_, rfl⟩
  rcases ofRepository_eq plainRequest (strangeJob language isIndexed).wantsIndex rooted
    (rootOf_slash twoLanguageFiles rooted) listed with ⟨analysis, analysed, issues, -⟩
  refine ⟨analysis, analysed, ?_⟩
  rw [issues]
  rfl

theorem after_begun {first second : Analysis}
    (analysedFirst : (strangeJob "cobol" true).analysis plainRequest twoLanguageFiles = .ok first)
    (analysedSecond : (strangeJob "ada" false).analysis plainRequest twoLanguageFiles =
      .ok second) :
    let start := around (((Archive.unused false).after []).openAt [])
    start.after begun = handed first.toJson second.toJson ∧ start.neverStale begun = true := by
  have misguided : misguidedJob.analysis plainRequest twoLanguageFiles =
      .error (.wrongKind "'int' object is not iterable") := by
    rw [Job.Parameters.analysis, ofRepository, show misguidedJob.path = "/" from rfl,
      rootOf_slash twoLanguageFiles ⟨_, rfl⟩]
    rfl
  simp only [begun, turnsOf, List.map_cons, List.map_nil, List.cons_append, List.nil_append,
    after_cons, neverStale, isStale, perform, around, Worker.begin, Worker.turn, Worker.enter,
    List.getElem?_cons_zero, List.getElem?_cons_succ, List.set_cons_zero, List.set_cons_succ,
    analysedFirst, analysedSecond, misguided]
  exact ⟨rfl, rfl⟩

/-- The workshop in which the three workers have ended, two of them with a number. -/
def ended (archive : Archive) (savers : Archive.Saver × Archive.Saver) (own other : Nat) :
    Workshop :=
  let concluded := fun parameters result =>
    Job.mk plainRequest.now parameters (Job.concluded parameters plainRequest.now result)
  ⟨archive,
    [⟨"a", concluded (strangeJob "cobol" true) (.ok own), .ended, savers.1⟩,
      ⟨"b", concluded (strangeJob "ada" false) (.ok other), .ended, savers.2⟩,
      ⟨"c", concluded misguidedJob (.error "'int' object is not iterable"), .ended,
        ⟨⟨plainRequest.now, .null⟩, .waiting⟩⟩]⟩

/-- Both workers look at the catalog before one of them has written it. -/
def rushed : List Event := turnsOf Archive.Crowd.rushed ++ recorded

/-- The two savings come between each other where that does no harm. -/
def alternating : List Event := turnsOf Archive.Crowd.alternating ++ recorded

theorem exists_ended (first second : Json) :
    (∃ archive savers, (handed first second).after rushed = ended archive savers 1 1 ∧
      archive.get (.nat 1) = .ok second) ∧
      (∃ archive savers, (handed first second).after alternating = ended archive savers 1 2) ∧
      (handed first second).neverStale alternating = true := by
  have wanted : (strangeJob "cobol" true).wantsIndex = true := rfl
  have unwanted : (strangeJob "ada" false).wantsIndex = false := rfl
  simp only [rushed, alternating, recorded, turnsOf, Archive.Crowd.rushed,
    Archive.Crowd.alternating, List.map_cons, List.map_nil, List.cons_append, List.nil_append,
    handed, Archive.openAt, Archive.unused, Archive.after, List.foldl_nil, prepare,
    absent, Archive.Catalog.empty, after_cons, neverStale, isStale, perform,
    Worker.turn, Archive.Saver.keep, Archive.Saver.advance, Archive.Saver.proceed,
    writeCatalog, writeDocument, readCatalog,
    Archive.Stage.outcome?, Worker.conclude, Worker.enter, Job.entries, wanted, unwanted,
    List.getElem?_cons_zero, List.getElem?_cons_succ, List.set_cons_zero, List.set_cons_succ,
    if_true, Bool.false_eq_true, if_false, Option.getD_none, Option.getD_some, Option.any_some]
  refine ⟨⟨_, ⟨_, _⟩, rfl, ?_⟩, ⟨_, ⟨_, _⟩, rfl⟩, ?_⟩
  · rw [Json.nat, Archive.get_of_folder rfl, show toString ((1 : Nat) : Int) = toString 1 from rfl]
    simp [find?, readCatalog, Archive.Catalog.place?,
      Archive.Catalog.enter, Archive.Catalog.enter.enterIn, Archive.Saver.place]
  · simp [Archive.Saver.isStale, Archive.Stage.seen?, readCatalog]

theorem neverStale_append (workshop : Workshop) (before later : List Event) :
    workshop.neverStale (before ++ later) =
      (workshop.neverStale before && (workshop.after before).neverStale later) := by
  induction before generalizing workshop with
  | nil => rfl
  | cons event rest ih => rw [List.cons_append, neverStale, neverStale, ih, Bool.and_assoc]; rfl

/-- Of three jobs at the same time one fails, and two finish with different reports. -/
theorem alternating_jobs_accounted :
    let start := around (((Archive.unused false).after []).openAt [])
    let final := start.after (begun ++ alternating)
    Orderly (begun ++ alternating) ∧ start.neverStale (begun ++ alternating) = true ∧
      (∃ moment error, Failed (final.jobs.record "c") misguidedJob moment error) ∧
      ∀ {number : Nat}, (final.jobs.record "a").element "report_id" = .ok (.nat number) →
        (final.jobs.record "b").element "report_id" ≠ .ok (.nat number) := by
  rcases exists_strange true (rfl : RequestedLanguage.list (.texts ["cobol"]) = _) with
    ⟨first, analysedFirst, -⟩
  rcases exists_strange false (rfl : RequestedLanguage.list (.texts ["ada"]) = _) with
    ⟨second, analysedSecond, -⟩
  rcases after_begun analysedFirst analysedSecond with ⟨beginning, freshFirst⟩
  rcases (exists_ended first.toJson second.toJson).2 with ⟨⟨archive, savers, ending⟩, freshLater⟩
  have orderly : Orderly (begun ++ alternating) := by decide
  have accounted := jobs_are_accounted_for false [] [] orderly
  have fresh : (around (((Archive.unused false).after []).openAt [])).neverStale
      (begun ++ alternating) = true := by
    rw [neverStale_append, freshFirst, beginning, freshLater]
    rfl
  have final : (around (((Archive.unused false).after []).openAt [])).after (begun ++ alternating) =
      ended archive savers 1 2 := by
    rw [after_append, beginning, ending]
  refine ⟨orderly, fresh, ?_, ?_⟩
  · rcases accounted.settled (by rw [final]; exact (rfl : (ended archive savers 1 2).workers[2]? = _))
      rfl with ⟨last, -, ⟨⟨_, _, -, finished, -⟩, -⟩ | ⟨⟨fault, -, failed, -⟩, -⟩⟩
    · rw [final] at finished
      cases finished.error
    · exact ⟨_, _, failed⟩
  · intro number own other
    have same := accounted.apart fresh
      (by rw [final]; exact (rfl : (ended archive savers 1 2).workers[0]? = _)) rfl
      (by rw [final]; exact (rfl : (ended archive savers 1 2).workers[1]? = _)) rfl own other
    cases same

/-- Two jobs at the same time may both finish with the number one, which leads to the report of one
of them only. -/
theorem rushed_jobs_share_report :
    let final := (around (((Archive.unused false).after []).openAt [])).after (begun ++ rushed)
    ∃ first second : Analysis,
      (strangeJob "cobol" true).analysis plainRequest twoLanguageFiles = .ok first ∧
      (strangeJob "ada" false).analysis plainRequest twoLanguageFiles = .ok second ∧
      first.toJson ≠ second.toJson ∧ Orderly (begun ++ rushed) ∧
      Finished (final.jobs.record "a") (strangeJob "cobol" true) plainRequest.now 1 ∧
      Finished (final.jobs.record "b") (strangeJob "ada" false) plainRequest.now 1 ∧
      final.archive.get (.nat 1) = .ok second.toJson := by
  rcases exists_strange true (rfl : RequestedLanguage.list (.texts ["cobol"]) = _) with
    ⟨first, analysedFirst, idsFirst⟩
  rcases exists_strange false (rfl : RequestedLanguage.list (.texts ["ada"]) = _) with
    ⟨second, analysedSecond, idsSecond⟩
  rcases (exists_ended first.toJson second.toJson).1 with ⟨archive, savers, final, found⟩
  rw [after_append, (after_begun analysedFirst analysedSecond).1, final]
  refine ⟨first, second, analysedFirst, analysedSecond, ?_, by decide, finished_toJson _ _ _ _,
    finished_toJson _ _ _ _, found⟩
  intro same
  have issues : first.issues.map (·.toJson) = second.issues.map (·.toJson) :=
    Json.arr.inj (Except.ok.inj (congrArg (·.element "issues") same))
  have ids := congrArg (List.map (·.element "id")) issues
  have said : ∀ analysis : Analysis, (analysis.issues.map (·.toJson)).map (·.element "id") =
      (analysis.issues.map (·.finding.id)).map (.ok <| .str ·) := by
    intro analysis
    rw [List.map_map, List.map_map]
    apply List.map_congr_left
    rintro ⟨⟨id, category, severity, message, details⟩, score⟩ -
    cases details <;> rfl
  rw [said, said, idsFirst, idsSecond] at ids
  cases ids

end

end Workshop
end CodeQuality
