import CodeQuality.Proofs.Archive.Interchange
import CodeQuality.Proofs.Outcome

namespace CodeQuality

open Archive.Table

namespace Archive

/-!
An archive that has been opened, with databases or without.

What has been saved in an opened archive is a series of savings, whatever it keeps
them in: a report is found under the number of its saving, and one more saving is put
at the end.  A table takes a report whose score has 64 bits as long as there is a number
left for it.
-/

/-- An opened archive keeps a series of savings, in its folder or in the table of a directory. -/
inductive Opened : Archive → List Saving → Prop where
  | folder {archive : Archive} {savings : List Saving} (reached : Reached archive true savings) :
      Opened archive savings
  | table {archive : Archive} {savings : List Saving} (folderless : archive.folder = .absent)
      (tabulated : Tabulated archive savings) (fitting : fits savings.length = true) :
      Opened archive savings

theorem fits_natCast (n : Nat) : fits n = decide (n ≤ 9223372036854775807) := by
  rw [fits, decide_eq_true (by omega), Bool.true_and]
  exact decide_eq_decide.mpr (by omega)

variable {report : Json}

theorem perform_saving_of_ok {archive grown : Archive} {now : Moment} {number : Nat}
    (saved : archive.save now report = .ok (number, grown)) :
    archive.perform (.saving now report) = (.ok (.saved number), grown) := by
  rw [perform, saved]

/-- A saving with databases is a saving in the table of the directory in use. -/
theorem save_of_opened {archive : Archive} {directory : Files.Path}
    (opened : archive.opened = some directory) (now : Moment) (report : Json) :
    archive.save now report = ((archive.tableOf directory).save now report).map fun saved =>
      (saved.1, { archive with tables := (directory, saved.2) :: archive.tables }) := by
  rw [save, opened]
  rfl

/-- A table that has a number left takes every report whose score has 64 bits. -/
theorem Table.save_of_scored {score : Int} (scored : scoreOf report = .ok score)
    (fitting : fits score = true) (table : Table) (now : Moment) :
    table.save now report = if fits (table.rows.length + 1 : Nat) then
        .ok (table.rows.length + 1, ⟨table.rows ++ [⟨table.rows.length + 1, now, report⟩]⟩)
      else .error full := by
  rw [save, scored]
  simp only [bind, Except.bind, fitting, if_true]
  rfl

/-! ## Savings and questions -/

theorem recordedUnder_append {savings : List Saving} {id : Int}
    (recorded : recordedUnder savings id = some report) (more : List Saving) :
    recordedUnder (savings ++ more) id = some report := by
  rw [recordedUnder] at recorded ⊢
  by_cases low : id < 1
  · rw [if_pos low] at recorded
    cases recorded
  · rw [if_neg low] at recorded ⊢
    rcases Option.map_eq_some_iff.mp recorded with ⟨saving, present, rfl⟩
    rw [List.getElem?_append_left (List.getElem?_eq_some_iff.mp present).1, present]
    rfl

namespace Opened

variable {archive : Archive} {savings : List Saving}

/-- A saving that succeeds has the next number, and its report comes last. -/
theorem of_save (isOpen : archive.Opened savings) {grown : Archive} {now : Moment} {number : Nat}
    (saved : archive.save now report = .ok (number, grown)) :
    number = savings.length + 1 ∧ grown.Opened (savings ++ [⟨now, report⟩]) := by
  have performed := perform_saving_of_ok saved
  cases isOpen with
  | folder reached =>
      have next := reached.perform_saving now report
      rw [performed] at next
      rcases next with ⟨answered, after⟩
      cases answered
      exact ⟨rfl, .folder after⟩
  | table folderless tabulated fitting =>
      have answered : (archive.perform (.saving now report)).1 = .ok (.saved number) := by
        rw [performed]
      rcases tabulated.perform_saving answered with ⟨next, after⟩
      rw [performed] at after
      rcases tabulated with ⟨directory, opened, -⟩
      rw [save_of_opened opened] at saved
      rcases Outcome.exists_of_map saved with ⟨⟨given, changed⟩, inTable, same⟩
      cases same
      refine ⟨next, .table folderless after ?_⟩
      rw [List.length_append, List.length_singleton, ← next]
      exact (Table.of_save inTable).2.2

/-- A report is found under a number exactly when it was saved under it. -/
theorem get_eq_ok_iff (isOpen : archive.Opened savings) (id : Int) (report : Json) :
    archive.get (.int id) = .ok report ↔ recordedUnder savings id = some report := by
  cases isOpen with
  | folder reached =>
      have answered := (reached.perform_eq (.finding id)).1
      simp only [perform, recordedAnswer] at answered
      cases found : archive.get (.int id) <;> cases recorded : recordedUnder savings id <;>
        simp_all [Except.map]
  | table folderless tabulated fitting =>
      by_cases idFits : fits id = true
      · rw [tabulated.get_eq idFits]
        cases recordedUnder savings id <;> simp
      · have unknown : id < 1 ∨ savings.length < id := by
          rw [fits_natCast, decide_eq_true_eq] at fitting
          rw [fits, Bool.and_eq_true, decide_eq_true_eq, decide_eq_true_eq] at idFits
          omega
        rcases tabulated with ⟨directory, opened, rows⟩
        rw [recordedUnder_eq_none unknown, get, opened]
        simp [find?, wanted, idFits, bind, Except.bind]

theorem get_saved (isOpen : archive.Opened savings) {index : Nat} {saving : Saving}
    (present : savings[index]? = some saving) :
    archive.get (.nat (index + 1)) = .ok saving.report := by
  rw [Json.nat, isOpen.get_eq_ok_iff, recordedUnder, if_neg (by omega)]
  rw [show ((index + 1 : Nat) : Int).toNat - 1 = index by omega, present]
  rfl

/-- What is found in an archive is found when more has been saved in it. -/
theorem get_of_grown (isOpen : archive.Opened savings) {grown : Archive} {more : List Saving}
    (later : grown.Opened (savings ++ more)) {id : Int}
    (found : archive.get (.int id) = .ok report) : grown.get (.int id) = .ok report := by
  rw [get_eq_ok_iff later]
  exact recordedUnder_append ((isOpen.get_eq_ok_iff id report).mp found) more

end Opened

variable {archive : Archive}

/-! ## Every archive that is opened -/

/-- With databases, the table of every directory has the rows of some savings. -/
structure InTables (archive : Archive) : Prop where
  withDatabases : archive.hasDatabases = true
  folderless : archive.folder = .absent
  tables : ∀ directory, ∃ savings, (archive.tableOf directory).rows = numbering rowEntry 0 savings ∧
    fits savings.length = true

theorem inTables_unused : InTables (unused true) where
  withDatabases := rfl
  folderless := rfl
  tables := fun _ => ⟨[], rfl, rfl⟩

/-- A request changes one table at most, by a row at its end. -/
theorem InTables.perform (inTables : archive.InTables) (request : Request) :
    (archive.perform request).2.InTables := by
  have withDatabases := inTables.withDatabases
  cases request with
  | opening directory =>
      simp only [Archive.perform, openAt, if_pos withDatabases]
      exact ⟨withDatabases, inTables.folderless, inTables.tables⟩
  | finding id => exact inTables
  | listing limit offset => exact inTables
  | saving now report =>
      have untouched : archive.folder.afterRefusal now report = archive.folder := by
        rw [inTables.folderless]
        rfl
      cases inUse : archive.opened with
      | none =>
          have refused : archive.save now report = .error (.file .absent Folder.catalogPlace) := by
            rw [save, inUse, inTables.folderless]
            rfl
          simp only [Archive.perform, refused, untouched]
          exact inTables
      | some directory =>
          rcases outcome : (archive.tableOf directory).save now report with fault | ⟨given, table⟩
          · have refused : archive.save now report = .error fault := by
              rw [save_of_opened inUse, outcome]
              rfl
            simp only [Archive.perform, refused, untouched]
            exact inTables
          · have saved : archive.save now report =
                .ok (given, { archive with tables := (directory, table) :: archive.tables }) := by
              rw [save_of_opened inUse, outcome]
              rfl
            simp only [perform_saving_of_ok saved]
            refine ⟨withDatabases, inTables.folderless, ?_⟩
            intro other
            by_cases same : other = directory
            · rcases inTables.tables directory with ⟨savings, rows, -⟩
              rcases of_save outcome with ⟨next, grown, fitting⟩
              rw [rows, length_numbering] at next
              refine ⟨savings ++ [⟨now, report⟩], ?_, ?_⟩
              · rw [same, tableOf, List.lookup_cons_self, Option.getD_some, grown, rows,
                  numbering_append, next, Nat.zero_add]
                rfl
              · rw [List.length_append, List.length_singleton, ← next]
                exact fitting
            · have apart : (archive.tableOf other) =
                  (({ archive with tables := (directory, table) :: archive.tables } :
                    Archive).tableOf other) := by
                rw [tableOf, tableOf, List.lookup_cons, beq_false_of_ne same]
              rw [← apart]
              exact inTables.tables other

theorem InTables.after (inTables : archive.InTables) (requests : List Request) :
    (archive.after requests).InTables := by
  induction requests generalizing archive with
  | nil => exact inTables
  | cons request rest ih =>
      rw [after_cons]
      exact ih (inTables.perform request)

/-- Whatever has been asked of an archive before, opening it gives an opened archive. -/
theorem exists_opened (hasDatabases : Bool) (requests : List Request) (directory : Files.Path) :
    ∃ savings, (((unused hasDatabases).after requests).openAt directory).Opened savings := by
  cases hasDatabases with
  | false =>
      rcases Reached.unopened.run requests with ⟨savings, reached, -⟩
      exact ⟨[] ++ savings, .folder (reached.perform_opening directory)⟩
  | true =>
      have inTables := inTables_unused.after requests
      rcases inTables.tables directory with ⟨savings, rows, fitting⟩
      rw [openAt, if_pos inTables.withDatabases]
      exact ⟨savings, .table inTables.folderless ⟨directory, rfl, rows⟩ fitting⟩

end Archive
end CodeQuality
