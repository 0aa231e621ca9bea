import CodeQuality.Proofs.Archive.AppendOnly

namespace CodeQuality

open List

namespace Archive

/-!
A table and a folder can stand in for each other.

The two keep reports in different ways: a table lists its rows by the moment of their
saving, a folder its documents by their number.  Both are compared with a plain log,
the savings made so far in their order, which says what the answer to a request has
to be.  As long as the clock rises from saving to saving, the answers of both are
those of the log, so they are the answers of each other.

A table refuses some reports and all numbers beyond 64 bits, which a folder takes.
Nothing is said about runs in which that happens.
-/

/-! ## The log -/

/-- The report that was saved under a number, if there is one. -/
def recordedUnder (savings : List Saving) (id : Int) : Option Json :=
  if id < 1 then none else savings[id.toNat - 1]?.map Saving.report

/-- The answer to a request after a series of savings. -/
def recordedAnswer (savings : List Saving) : Request → Outcome Answer
  | .opening _ => .ok .opened
  | .saving _ _ => .ok (.saved (savings.length + 1))
  | .finding id =>
      match recordedUnder savings id with
      | some report => .ok (.found report)
      | none => .error (notFound (.int id))
  | .listing limit offset =>
      .ok (.listed (((savings.map Saving.report).reverse.drop offset).take limit))

/-- What a request adds to the log. -/
def Request.added : Request → List Saving
  | .saving now report => [⟨now, report⟩]
  | _ => []

/-- The answers to a series of requests, each after the savings before it. -/
def recordedAnswers (savings : List Saving) : List Request → List (Outcome Answer)
  | [] => []
  | request :: rest =>
      recordedAnswer savings request :: recordedAnswers (savings ++ request.added) rest

/-- A number below one or beyond the last saving has no report in the log. -/
theorem recordedUnder_eq_none {savings : List Saving} {id : Int}
    (unknown : id < 1 ∨ savings.length < id) : recordedUnder savings id = none := by
  rw [recordedUnder]
  by_cases low : id < 1
  · rw [if_pos low]
  · rw [if_neg low, getElem?_eq_none (by omega), Option.map_none]

/-! ## The folder -/

/-- A folder answers like the log. -/
theorem Reached.perform_eq {archive : Archive} {savings : List Saving}
    (reached : Reached archive true savings) (request : Request) :
    (archive.perform request).1 = recordedAnswer savings request ∧
      Reached (archive.perform request).2 true (savings ++ request.added) := by
  cases request with
  | opening directory =>
      exact ⟨rfl, (append_nil savings).symm ▸ reached.perform_opening directory⟩
  | saving now report => exact reached.perform_saving now report
  | finding id =>
      refine ⟨?_, (append_nil savings).symm ▸ reached⟩
      simp only [Archive.perform, recordedAnswer]
      by_cases unknown : id < 1 ∨ savings.length < id
      · rw [reached.get_unknown unknown, recordedUnder_eq_none unknown]
        rfl
      · have inside : id.toNat - 1 < savings.length := by omega
        have present := getElem?_eq_getElem inside
        have numbered : id = (id.toNat - 1 + 1 : Nat) := by omega
        have found := reached.get_saved present
        rw [← numbered] at found
        rw [found, recordedUnder, if_neg (by omega), present]
        rfl
  | listing limit offset =>
      refine ⟨?_, (append_nil savings).symm ▸ reached⟩
      simp only [Archive.perform, recordedAnswer, reached.list_eq]
      rfl

/-! ## The table -/

/-- The row of a saving. -/
def rowEntry (number : Nat) (saving : Saving) : Row := ⟨number, saving.moment, saving.report⟩

/-- The row with a number has the report that was saved under it. -/
theorem find?_rows (savings : List Saving) (id : Int) :
    ((numbering rowEntry 0 savings).find? fun row => decide ((row.number : Int) = id)).map
      Row.report = recordedUnder savings id := by
  rw [recordedUnder]
  by_cases low : id < 1
  · rw [if_pos low, find?_eq_none.mpr, Option.map_none]
    intro row member equal
    rcases mem_numbering member with ⟨index, saving, -, rfl⟩
    have same : ((0 + index + 1 : Nat) : Int) = id := of_decide_eq_true equal
    omega
  · have tells : ∀ own saving, decide (((rowEntry own saving).number : Int) = id) =
        decide (own = id.toNat) := fun own saving => decide_eq_decide.mpr (by
      simp only [rowEntry]
      omega)
    rw [if_neg low, find?_numbering tells, if_neg (by omega), Nat.sub_zero, Option.map_map]
    rfl

/-- The moments of savings rise. -/
def Rising (moments : List Moment) : Prop :=
  moments.Pairwise fun earlier later => earlier.isBefore later = true

instance (moments : List Moment) : Decidable (Rising moments) :=
  inferInstanceAs (Decidable (moments.Pairwise _))

/-- When the moments of rows rise, sorting the rows by falling moments turns them around. -/
theorem byNewest_eq_reverse {table : Table} (rising : Rising (table.rows.map Row.savedAt)) :
    table.byNewest = table.rows.reverse := by
  let epoch := fun row : Row => row.savedAt.sinceEpoch
  have notBefore : ∀ first second : Row,
      (!first.savedAt.isBefore second.savedAt) = true ↔ epoch second ≤ epoch first := by
    intro first second
    simp only [Moment.isBefore, Bool.not_eq_true', decide_eq_false_iff_not, Int.not_lt, epoch]
  have strict : table.rows.Pairwise fun first second => epoch first < epoch second :=
    (pairwise_map.mp rising).imp of_decide_eq_true
  have unique : (table.rows.map epoch).Nodup :=
    pairwise_map.mpr (strict.imp fun below => Int.ne_of_lt below)
  have permuted : table.byNewest.Perm table.rows.reverse :=
    (mergeSort_perm _ _).trans (reverse_perm _).symm
  have falling : table.byNewest.Pairwise fun first second => epoch second ≤ epoch first := by
    have sorted : table.byNewest.Pairwise
        fun first second => (!first.savedAt.isBefore second.savedAt) = true :=
      pairwise_mergeSort
        (fun first second third => by simp only [notBefore]; omega)
        (fun first second => by rw [Bool.or_eq_true, notBefore, notBefore]; omega)
        table.rows
    exact sorted.imp fun {first second} => (notBefore first second).mp
  have turned : table.rows.reverse.Pairwise fun first second => epoch second ≤ epoch first :=
    pairwise_reverse.mpr (strict.imp Int.le_of_lt)
  refine permuted.eq_of_pairwise ?_ falling turned
  intro first second firstMember secondMember below above
  have inTable : first ∈ table.rows := (mergeSort_perm _ _).mem_iff.mp firstMember
  exact inj_on_of_nodup_map unique inTable (mem_reverse.mp secondMember) (by omega)

/-- A saving that succeeds adds a row with the next number, which has 64 bits. -/
theorem Table.of_save {table changed : Table} {now : Moment} {report : Json} {number : Nat}
    (saved : table.save now report = .ok (number, changed)) :
    number = table.rows.length + 1 ∧ changed.rows = table.rows ++ [⟨number, now, report⟩] ∧
      Table.fits number = true := by
  rw [Table.save] at saved
  cases scored : Table.scoreOf report with
  | error fault =>
      rw [scored] at saved
      cases saved
  | ok score =>
      rw [scored] at saved
      simp only [bind, Except.bind, pure, Except.pure] at saved
      by_cases fitting : Table.fits score = true
      · rw [if_pos fitting] at saved
        by_cases free : Table.fits (table.rows.length + 1 : Nat) = true
        · rw [if_pos free] at saved
          cases saved
          exact ⟨rfl, rfl, free⟩
        · rw [if_neg free] at saved
          cases saved
      · rw [if_neg fitting] at saved
        cases saved

/-- The table of the directory in use has the rows of a series of savings. -/
def Tabulated (archive : Archive) (savings : List Saving) : Prop :=
  ∃ directory, archive.opened = some directory ∧
    (archive.tableOf directory).rows = numbering rowEntry 0 savings

/-- Opening an archive with databases that nobody has used gives a table without rows. -/
theorem tabulated_openAt (directory : Files.Path) : Tabulated ((unused true).openAt directory) [] :=
  ⟨directory, rfl, rfl⟩

namespace Tabulated

variable {archive : Archive} {savings : List Saving}

/-- A saving that succeeds has the next number and adds a row. -/
theorem perform_saving (tabulated : Tabulated archive savings) {now : Moment} {report : Json}
    {number : Nat} (succeeded : (archive.perform (.saving now report)).1 = .ok (.saved number)) :
    number = savings.length + 1 ∧
      Tabulated (archive.perform (.saving now report)).2 (savings ++ [⟨now, report⟩]) := by
  rcases tabulated with ⟨directory, opened, rows⟩
  have whole : archive.save now report =
      ((archive.tableOf directory).save now report).map fun saved =>
        (saved.1, { archive with tables := (directory, saved.2) :: archive.tables }) := by
    rw [save, opened]
    rfl
  cases outcome : (archive.tableOf directory).save now report with
  | error fault =>
      simp only [perform, whole, outcome, Except.map] at succeeded
      cases succeeded
  | ok saved =>
      rcases saved with ⟨given, table⟩
      rcases Table.of_save outcome with ⟨next, grown, -⟩
      simp only [perform, whole, outcome, Except.map] at succeeded ⊢
      cases succeeded
      rw [rows, length_numbering] at next
      refine ⟨next, directory, opened, ?_⟩
      rw [tableOf, lookup_cons_self, Option.getD_some, grown, rows, numbering_append, next,
        Nat.zero_add]
      rfl

/-- A report is found by the number of its row. -/
theorem get_eq (tabulated : Tabulated archive savings) {id : Int} (fitting : Table.fits id = true) :
    archive.get (.int id) = match recordedUnder savings id with
      | some report => .ok report
      | none => .error (notFound (.int id)) := by
  rcases tabulated with ⟨directory, opened, rows⟩
  have found : (archive.tableOf directory).find? (.int id) = .ok (recordedUnder savings id) := by
    have row := find?_rows savings id
    rw [← rows] at row
    simp only [Table.find?, Table.wanted, fitting, if_true, bind, Except.bind, pure, Except.pure,
      row]
  rw [get, opened]
  simp only [found, bind, Except.bind]
  cases recordedUnder savings id <;> rfl

/-- When the clock rises, listing by moments is listing by falling numbers. -/
theorem list_eq (tabulated : Tabulated archive savings)
    (rising : Rising (savings.map Saving.moment)) {limit offset : Nat}
    (limitFits : Table.fits limit = true) (offsetFits : Table.fits offset = true) :
    archive.list limit offset =
      .ok (((savings.map Saving.report).reverse.drop offset).take limit) := by
  rcases tabulated with ⟨directory, opened, rows⟩
  have turned : (archive.tableOf directory).byNewest = (numbering rowEntry 0 savings).reverse := by
    rw [byNewest_eq_reverse, rows]
    rw [rows, map_numbering]
    exact (numbering_saving Saving.moment).symm ▸ rising
  rw [list, opened]
  simp only [Table.list, limitFits, offsetFits, Bool.and_self, if_true, turned, Int.toNat_natCast]
  rw [if_neg (by omega), map_take, map_drop, map_reverse, map_numbering]
  exact (numbering_saving Saving.report).symm ▸ rfl

end Tabulated

/-! ## Runs -/

/-- Whether a request saves a report. -/
def Request.isSaving : Request → Bool
  | .saving _ _ => true
  | _ => false

/-- Whether the numbers of a request have 64 bits. -/
def Request.fits : Request → Bool
  | .finding id => Table.fits id
  | .listing limit offset => Table.fits limit && Table.fits offset
  | _ => true

/-- Whether every saving in a run of requests is answered with a number. -/
def everySavingSucceeds (archive : Archive) (requests : List Request) : Bool :=
  (requests.zip (archive.answers requests)).all fun entry =>
    !entry.1.isSaving || (succeeded? entry).isSome

/-- The moments of the savings among requests. -/
def savingMoments (requests : List Request) : List Moment :=
  (requests.flatMap Request.added).map Saving.moment

variable {archive : Archive} {savings : List Saving}

/-- A table answers like the log, as long as the clock rises. -/
theorem Tabulated.perform_eq (tabulated : Tabulated archive savings)
    (rising : Rising (savings.map Saving.moment)) {request : Request}
    (further : request.isOpening = false) (fitting : request.fits = true)
    (succeeds : request.isSaving = true →
      (succeeded? (request, (archive.perform request).1)).isSome = true) :
    (archive.perform request).1 = recordedAnswer savings request ∧
      Tabulated (archive.perform request).2 (savings ++ request.added) := by
  cases request with
  | opening directory => cases further
  | saving now report =>
      have answered := succeeds rfl
      cases outcome : (archive.perform (.saving now report)).1 with
      | error fault =>
          rw [outcome] at answered
          cases answered
      | ok answer =>
          cases answer with
          | saved number =>
              rcases tabulated.perform_saving outcome with ⟨next, grown⟩
              exact ⟨by rw [next]; rfl, grown⟩
          | _ =>
              rw [outcome] at answered
              cases answered
  | finding id =>
      refine ⟨?_, (append_nil savings).symm ▸ tabulated⟩
      simp only [perform, recordedAnswer, tabulated.get_eq fitting]
      cases recordedUnder savings id <;> rfl
  | listing limit offset =>
      rcases Bool.and_eq_true_iff.mp fitting with ⟨limitFits, offsetFits⟩
      refine ⟨?_, (append_nil savings).symm ▸ tabulated⟩
      simp only [perform, recordedAnswer, tabulated.list_eq rising limitFits offsetFits]
      rfl

theorem Reached.answers_eq (reached : Reached archive true savings) (requests : List Request) :
    archive.answers requests = recordedAnswers savings requests := by
  induction requests generalizing archive savings with
  | nil => rfl
  | cons request rest ih =>
      rcases reached.perform_eq request with ⟨answered, next⟩
      rw [answers, recordedAnswers, answered, ih next]

/-- The moments of the whole run have to rise, because a listing looks at those of all savings
before it. -/
theorem Tabulated.answers_eq (tabulated : Tabulated archive savings) (requests : List Request)
    (further : ∀ request ∈ requests, request.isOpening = false)
    (fitting : ∀ request ∈ requests, request.fits = true)
    (rising : Rising (savings.map Saving.moment ++ savingMoments requests))
    (succeeds : archive.everySavingSucceeds requests = true) :
    archive.answers requests = recordedAnswers savings requests := by
  induction requests generalizing archive savings with
  | nil => rfl
  | cons request rest ih =>
      rw [everySavingSucceeds, answers, zip_cons_cons, all_cons, Bool.and_eq_true,
        Bool.or_eq_true, Bool.not_eq_true'] at succeeds
      rcases tabulated.perform_eq (pairwise_append.mp rising).1 (further request mem_cons_self)
        (fitting request mem_cons_self) fun saves => succeeds.1.resolve_left (by rw [saves]; exact
        Bool.noConfusion) with ⟨answered, next⟩
      rw [savingMoments, flatMap_cons, map_append, ← append_assoc,
        ← map_append] at rising
      rw [answers, recordedAnswers, answered]
      rw [ih next (fun other member => further other (mem_cons_of_mem _ member))
        (fun other member => fitting other (mem_cons_of_mem _ member)) rising succeeds.2]

/-- An archive with databases and one without give the same answers to the same requests, once
both have been opened: the same numbers, the same reports, the same faults and the same lists, step
by step.  The clock has to rise from saving to saving, the numbers in requests have 64 bits, and
the database has to take every report. -/
theorem table_and_folder_answer_alike (directory : Files.Path) (requests : List Request)
    (further : ∀ request ∈ requests, request.isOpening = false)
    (fitting : ∀ request ∈ requests, request.fits = true)
    (rising : Rising (savingMoments requests))
    (succeeds : ((unused true).openAt directory).everySavingSucceeds requests = true) :
    ((unused true).openAt directory).answers requests =
      ((unused false).openAt directory).answers requests := by
  have opened : Reached ((unused false).openAt directory) true [] :=
    Reached.unopened.perform_opening directory
  rw [opened.answers_eq requests]
  exact (tabulated_openAt directory).answers_eq requests further fitting rising succeeds

/-- Two reports saved within a microsecond, with questions between and after them. -/
def twoSavings : List Request :=
  [.saving ⟨⟨739253⟩, 0⟩ (.obj [("overall_score", .int 90)]), .finding 1, .finding 2,
    .saving ⟨⟨739253⟩, 1⟩ (.obj [("overall_score", .int 40)]), .finding 2, .finding (-1),
    .listing 1 1, .listing 9 0]

/-- The clock rises between the two savings, and the database takes both reports. -/
theorem twoSavings_answered_alike :
    Rising (savingMoments twoSavings) ∧
      ((unused true).openAt []).everySavingSucceeds twoSavings = true ∧
      ((unused true).openAt []).answers twoSavings =
        ((unused false).openAt []).answers twoSavings := by
  have rising : Rising (savingMoments twoSavings) := by decide
  have succeeds : ((unused true).openAt []).everySavingSucceeds twoSavings = true := by decide
  exact ⟨rising, succeeds, table_and_folder_answer_alike [] twoSavings (by decide) (by decide)
    rising succeeds⟩

end Archive
end CodeQuality
