import CodeQuality.Proofs.Archive.Opened
import CodeQuality.Proofs.Usage

namespace CodeQuality

/-!
What an archive can hold.

An archive holds what has been saved in it and nothing else, in whatever directory it
was opened and whether it has databases or not.  The program saves records of analyses
and of reports on them.  So however it has been used, starting from an archive that
nobody has used, everything that is found in the archive is such a record.
-/

open CodeQuality.Action

namespace Archive

/-- Everything in an archive has a property: in all of its tables and in its folder. -/
structure All (holds : Json → Prop) (archive : Archive) : Prop where
  rows : ∀ pair ∈ archive.tables, ∀ row ∈ pair.2.rows, holds row.report
  documents : ∀ document ∈ archive.folder.documents, holds document.2

section

variable {holds : Json → Prop}

theorem all_unused (hasDatabases : Bool) : All holds (unused hasDatabases) := by
  constructor
  · intro pair member
    cases member
  · intro document member
    cases member

variable {archive : Archive} {report : Json}

theorem All.openAt (all : All holds archive) (directory : Files.Path) :
    All holds (archive.openAt directory) := by
  unfold Archive.openAt
  split
  · exact ⟨all.rows, all.documents⟩
  · exact ⟨all.rows, all.documents⟩

theorem All.tableOf (all : All holds archive) (directory : Files.Path) :
    ∀ row ∈ (archive.tableOf directory).rows, holds row.report := by
  unfold Archive.tableOf
  cases found : archive.tables.lookup directory with
  | none =>
      intro row member
      cases member
  | some table =>
      rcases List.lookup_eq_some_iff.mp found with ⟨before, after, whole, _⟩
      apply all.rows (directory, table)
      rw [whole]
      exact List.mem_append_right before List.mem_cons_self

theorem Folder.documents_of_writeCatalog {folder changed : Folder} {catalog : Catalog}
    (written : folder.writeCatalog catalog = .ok changed) :
    changed.documents = folder.documents := by
  unfold writeCatalog at written
  split at written
  · cases written
    rfl
  · cases written

/-- A folder that has taken a report holds it beside what it held. -/
theorem Folder.of_save {folder changed : Folder} {now : Moment} {number : Nat}
    (saved : folder.save now report = .ok (number, changed)) :
    ∃ place, changed.documents = (place, report) :: folder.documents := by
  unfold save takeNumber at saved
  rcases Outcome.exists_of_bind saved with ⟨⟨taken, numbered⟩, first, saved⟩
  rcases Outcome.exists_of_bind first with ⟨_, counted, same⟩
  cases same
  rcases Outcome.exists_of_bind saved with ⟨written, second, saved⟩
  rcases Outcome.exists_of_bind saved with ⟨entered, third, same⟩
  cases same
  unfold writeDocument at second
  split at second
  · cases second
    rw [← documents_of_writeCatalog counted]
    exact ⟨_, documents_of_writeCatalog third⟩
  · cases second

theorem All.save {grown : Archive} (all : All holds archive) {now : Moment} {number : Nat}
    (saved : archive.save now report = .ok (number, grown)) (kept : holds report) :
    All holds grown := by
  cases opened : archive.opened with
  | some directory =>
      rw [save_of_opened opened] at saved
      rcases Outcome.exists_of_map saved with ⟨⟨next, table⟩, entered, same⟩
      cases same
      rcases Table.of_save entered with ⟨_, rows, _⟩
      refine ⟨?_, all.documents⟩
      intro pair member row inside
      rcases List.mem_cons.mp member with rfl | old
      · rw [rows] at inside
        rcases List.mem_append.mp inside with before | last
        · exact all.tableOf directory row before
        · rw [List.mem_singleton.mp last]
          exact kept
      · exact all.rows pair old row inside
  | none =>
      rw [Archive.save, opened] at saved
      rcases Outcome.exists_of_bind saved with ⟨⟨next, folder⟩, entered, same⟩
      cases same
      rcases Folder.of_save entered with ⟨place, documents⟩
      refine ⟨all.rows, ?_⟩
      intro document member
      rw [documents] at member
      rcases List.mem_cons.mp member with rfl | old
      · exact kept
      · exact all.documents document old

/-- What is found in an archive is in it. -/
theorem All.of_get (all : All holds archive) {id : Json} (found : archive.get id = .ok report) :
    holds report := by
  cases opened : archive.opened with
  | some directory =>
      simp only [get, opened] at found
      rcases Outcome.exists_of_bind found with ⟨result, searched, found⟩
      cases result with
      | none => cases found
      | some kept =>
          cases found
          unfold Table.find? at searched
          rcases Outcome.exists_of_bind searched with ⟨wanted, _, searched⟩
          cases wanted with
          | none => cases searched
          | some number =>
              rcases Option.map_eq_some_iff.mp (Except.ok.inj searched) with ⟨row, there, rfl⟩
              exact all.tableOf directory row (List.mem_of_find?_eq_some there)
  | none =>
      simp only [get, opened] at found
      rcases Outcome.exists_of_bind found with ⟨result, searched, found⟩
      cases result with
      | none => cases found
      | some kept =>
          cases found
          rcases Option.bind_eq_some_iff.mp (Except.ok.inj searched) with ⟨place, _, there⟩
          rcases List.lookup_eq_some_iff.mp there with ⟨before, after, whole, _⟩
          apply all.documents (place, report)
          rw [whole]
          exact List.mem_append_right before List.mem_cons_self

/-- A number under which nothing is found is unknown, or too large for a table. -/
theorem fault_of_get {id : Int} {fault : Fault} (failed : archive.get (.int id) = .error fault) :
    fault = notFound (.int id) ∨ fault = Table.tooLarge := by
  cases opened : archive.opened with
  | some directory =>
      simp only [get, opened, Table.find?, Table.wanted] at failed
      cases fitting : Table.fits id with
      | false =>
          simp only [fitting] at failed
          cases failed
          exact Or.inr rfl
      | true =>
          simp only [fitting, bind, Except.bind, pure, Except.pure, if_true] at failed
          split at failed
          · cases failed
          · cases failed
            exact Or.inl rfl
  | none =>
      simp only [get, opened, bind, Except.bind, pure, Except.pure] at failed
      split at failed
      · cases failed
      · cases failed
        exact Or.inl rfl

end

end Archive

/-- A job saves nothing but the record of an analysis. -/
theorem Archive.All.work {archive : Archive} (all : archive.All Filed) (request : Analysis.Request)
    (files : Files) (parameters : Job.Parameters) :
    (Job.work request files archive parameters).2.All Filed := by
  unfold Job.work
  simp only
  split
  next number grown saved =>
    rcases Outcome.exists_of_bind saved with ⟨analysis, done, saved⟩
    exact all.save saved (.analysis done)
  next => exact all

/-- The archive goes on holding nothing but records of analyses and reports. -/
theorem lasting_archive (setting : Setting) :
    Lasting setting World.archive (Archive.All Filed) where
  spared := fun _ _ => Retrieval.spares_of_ignores fun _ _ _ => rfl
  forgets := fun _ _ => rfl
  writes := fun _ _ => rfl
  opening := fun world all => all.openAt world.files.workingDirectory
  saving := by
    intro report filed world all
    cases saved : world.archive.save setting.now report with
    | error fault =>
        rw [run_saveReport_of_error saved]
        exact all
    | ok result =>
        rw [run_saveReport_of_ok saved]
        exact all.save saved filed
  working := by
    intro name parameters world all
    change Archive.All Filed
      ((world.jobs.start name setting.analysis.now parameters).run setting.analysis world.files
        world.archive name).2
    unfold Jobs.run
    split
    · exact all
    · exact all.work setting.analysis world.files _

/-- However the program has been used since its archive was new, what is found in the archive is
the record of an analysis or of a report on one. -/
theorem filed_of_get {desk : Desk} {hasDatabases : Bool}
    (fresh : desk.world.archive = .unused hasDatabases) (uses : List (Setting × Use))
    {id report : Json} (found : (desk.after uses).world.archive.get id = .ok report) :
    Filed report := by
  have begins : desk.Upholds World.archive (Archive.All Filed) := by
    refine ⟨?_, fun _ _ => Retrieval.spares_of_ignores fun _ _ _ => rfl⟩
    rw [fresh]
    exact Archive.all_unused hasDatabases
  have ends : (desk.after uses).Upholds World.archive (Archive.All Filed) :=
    begins.after fun setting _ _ => lasting_archive setting
  exact ends.holds.of_get found

end CodeQuality
