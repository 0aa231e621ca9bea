import CodeQuality.Proofs.Archive.Holding

namespace CodeQuality

open List

namespace Archive

/-!
An archive without databases only ever grows.

Requests to an archive are made one after the other, in any order and as often as one
likes.  A run is described by what the requests were answered with, not by the state
of the archive: the savings that succeeded, with the numbers that were given back,
determine every later answer.  The invariant of the folder never appears in the main
statement.

A saving writes three times.  A writing that was done before a refusal would stay, so
that a refused saving changes nothing has to be proved and does not follow from the
refusal.
-/

/-- What can be asked of an archive. -/
inductive Request where
  | opening (directory : Files.Path)
  | saving (now : Moment) (report : Json)
  | finding (id : Int)
  | listing (limit offset : Nat)

/-- What an archive gives back. -/
inductive Answer where
  | opened
  | saved (number : Nat)
  | found (report : Json)
  | listed (reports : List Json)

/-- The folder that a refused saving leaves behind.  What has been written before the refusal
stays. -/
def Folder.afterRefusal (folder : Folder) (now : Moment) (report : Json) : Folder :=
  match folder.takeNumber with
  | .error _ => folder
  | .ok (number, numbered) =>
      match numbered.writeDocument (newPlace now number) report with
      | .error _ => numbered
      | .ok written => written

/-- Answer a request.  The archive after it is given back as well, also when the answer is a
fault. -/
def perform (archive : Archive) : Request → Outcome Answer × Archive
  | .opening directory => (.ok .opened, archive.openAt directory)
  | .saving now report =>
      match archive.save now report with
      | .ok (number, changed) => (.ok (.saved number), changed)
      | .error fault =>
          (.error fault, { archive with folder := archive.folder.afterRefusal now report })
  | .finding id => ((archive.get (.int id)).map Answer.found, archive)
  | .listing limit offset => ((archive.list limit offset).map Answer.listed, archive)

/-- The archive after a series of requests. -/
def after (archive : Archive) (requests : List Request) : Archive :=
  requests.foldl (fun current request => (current.perform request).2) archive

/-- The answers to a series of requests. -/
def answers (archive : Archive) : List Request → List (Outcome Answer)
  | [] => []
  | request :: rest => (archive.perform request).1 :: answers (archive.perform request).2 rest

/-- The number and the report of a saving that succeeded. -/
def succeeded? : Request × Outcome Answer → Option (Nat × Json)
  | (.saving _ report, .ok (.saved number)) => some (number, report)
  | _ => none

/-- The savings of a run that succeeded, with the numbers that were given back. -/
def saved (archive : Archive) (requests : List Request) : List (Nat × Json) :=
  (requests.zip (archive.answers requests)).filterMap succeeded?

/-- Whether a request opens the archive. -/
def Request.isOpening : Request → Bool
  | .opening _ => true
  | _ => false

/-- The number and the report of a saving. -/
def reportEntry (number : Nat) (saving : Saving) : Nat × Json := (number, saving.report)

/-! ## Single requests -/

/-- What requests can lead to: an archive that has not been opened, with its folder absent, or one
whose folder holds the savings made so far. -/
inductive Reached : Archive → Bool → List Saving → Prop where
  | unopened : Reached (.unused false) false []
  | opened {archive : Archive} {savings : List Saving}
      (withoutDatabases : archive.hasDatabases = false) (withoutTable : archive.opened = none)
      (holds : archive.folder.Holds savings) : Reached archive true savings

variable {archive : Archive} {savings : List Saving} {isOpened : Bool}

theorem Reached.eq_unused (reached : Reached archive false savings) : archive = unused false := by
  cases reached
  rfl

/-- Without a folder it is the first writing of a saving that is refused, so nothing has been
written by then. -/
theorem perform_saving_unopened (now : Moment) (report : Json) :
    (unused false).perform (.saving now report) =
      (.error (.file .absent Folder.catalogPlace), unused false) := rfl

theorem openAt_of_folder (withoutDatabases : archive.hasDatabases = false)
    (directory : Files.Path) :
    archive.openAt directory = { archive with folder := archive.folder.prepare } := by
  rw [openAt, if_neg (by rw [withoutDatabases]; exact Bool.false_ne_true)]

/-- Opening gives an archive with a folder, which holds what it held before. -/
theorem Reached.perform_opening (reached : Reached archive isOpened savings)
    (directory : Files.Path) : Reached (archive.openAt directory) true savings := by
  cases reached with
  | unopened => exact .opened rfl rfl Folder.Holds.prepare_absent
  | opened withoutDatabases withoutTable holds =>
      rw [openAt_of_folder withoutDatabases, holds.prepare_eq]
      exact .opened withoutDatabases withoutTable holds

/-- Opening an archive again changes nothing at all. -/
theorem Reached.openAt_eq (reached : Reached archive true savings) (directory : Files.Path) :
    archive.openAt directory = archive := by
  cases reached with
  | opened withoutDatabases withoutTable holds =>
      rw [openAt_of_folder withoutDatabases, holds.prepare_eq]

/-- Saving in an opened archive succeeds with the next number. -/
theorem Reached.perform_saving (reached : Reached archive true savings) (now : Moment)
    (report : Json) :
    (archive.perform (.saving now report)).1 = .ok (.saved (savings.length + 1)) ∧
      Reached (archive.perform (.saving now report)).2 true (savings ++ [⟨now, report⟩]) := by
  cases reached with
  | opened withoutDatabases withoutTable holds =>
      rcases holds.save now report with ⟨changed, succeeded, held⟩
      have whole : archive.save now report =
          .ok (savings.length + 1, { archive with folder := changed }) := by
        rw [save, withoutTable]
        simp only [succeeded, bind, Except.bind, pure, Except.pure]
      simp only [perform, whole, true_and]
      exact .opened withoutDatabases withoutTable held

/-- Every request keeps what is held, and adds a saving exactly when one succeeded. -/
theorem Reached.perform (reached : Reached archive isOpened savings) (request : Request) :
    ∃ more, Reached (archive.perform request).2 (isOpened || request.isOpening) (savings ++ more) ∧
      (succeeded? (request, (archive.perform request).1)).toList =
        numbering reportEntry savings.length more := by
  cases request with
  | opening directory =>
      refine ⟨[], ?_, rfl⟩
      simp only [Request.isOpening, Bool.or_true, append_nil]
      exact reached.perform_opening directory
  | saving now report =>
      simp only [Request.isOpening, Bool.or_false]
      cases isOpened with
      | false =>
          cases reached
          exact ⟨[], .unopened, rfl⟩
      | true =>
          rcases reached.perform_saving now report with ⟨answered, next⟩
          refine ⟨[⟨now, report⟩], next, ?_⟩
          rw [answered]
          rfl
  | finding id =>
      simp only [Request.isOpening, Bool.or_false]
      exact ⟨[], (append_nil savings).symm ▸ reached, rfl⟩
  | listing limit offset =>
      simp only [Request.isOpening, Bool.or_false]
      exact ⟨[], (append_nil savings).symm ▸ reached, rfl⟩

/-! ## Answers to questions -/

/-- Outside a database a report is found by the text of its number. -/
theorem get_of_folder (inFolder : archive.opened = none) (id : Int) :
    archive.get (.int id) = match archive.folder.find? (toString id) with
      | some report => .ok report
      | none => .error (notFound (.int id)) := by
  rw [get, inFolder]
  rfl

theorem Reached.opened_eq (reached : Reached archive isOpened savings) : archive.opened = none := by
  cases reached with
  | unopened => rfl
  | opened withoutDatabases withoutTable holds => exact withoutTable

theorem Reached.get_saved (reached : Reached archive isOpened savings) {index : Nat}
    {saving : Saving} (present : savings[index]? = some saving) :
    archive.get (.int (index + 1 : Nat)) = .ok saving.report := by
  rw [get_of_folder reached.opened_eq]
  cases reached with
  | unopened => cases present
  | opened withoutDatabases withoutTable holds =>
      have found : archive.folder.find? (toString ((index + 1 : Nat) : Int)) = some saving.report :=
        holds.find?_numeral present
      rw [found]

/-- No report is found under a number that is below one or above the number of savings. -/
theorem Reached.get_unknown (reached : Reached archive isOpened savings) {id : Int}
    (unknown : id < 1 ∨ savings.length < id) :
    archive.get (.int id) = .error (notFound (.int id)) := by
  rw [get_of_folder reached.opened_eq]
  cases reached with
  | unopened => rfl
  | opened withoutDatabases withoutTable holds =>
      have nothing : archive.folder.find? (toString id) = none := by
        apply holds.find?_eq_none
        intro index inside same
        cases id with
        | ofNat n =>
            have equal : index + 1 = n := Text.numeral_inj.mp same
            rcases unknown with low | high <;> simp only [Int.ofNat_eq_natCast] at * <;> omega
        | negSucc n =>
            -- a numeral does not begin with a sign
            have signed : '-' ∈ (toString (index + 1)).toList := by
              rw [same, show toString (Int.negSucc n) = "-" ++ toString (n + 1) from rfl,
                String.toList_append]
              exact mem_append_left _ (by decide)
            exact Text.notMem_numeral (by decide) _ signed
      rw [nothing]

theorem Reached.list_eq (reached : Reached archive isOpened savings) (limit offset : Nat) :
    archive.list limit offset =
      .ok (((savings.map Saving.report).reverse.drop offset).take limit) := by
  cases reached with
  | unopened =>
      rw [map_nil, reverse_nil, drop_nil, take_nil]
      rw [list, show (unused false).opened = none from rfl, Folder.list, Text.slice_natCast]
      simp [Folder.numbers, Folder.readCatalog, unused, Folder.absent, Catalog.empty]
  | opened withoutDatabases withoutTable holds =>
      simp only [list, withoutTable, holds.list_eq]

/-! ## Runs -/

theorem after_cons (archive : Archive) (request : Request) (rest : List Request) :
    archive.after (request :: rest) = (archive.perform request).2.after rest := rfl

theorem saved_cons (archive : Archive) (request : Request) (rest : List Request) :
    archive.saved (request :: rest) = (succeeded? (request, (archive.perform request).1)).toList ++
      (archive.perform request).2.saved rest := by
  rw [saved, answers, zip_cons_cons, filterMap_cons]
  cases succeeded? (request, (archive.perform request).1) <;> rfl

theorem saved_append (archive : Archive) (before later : List Request) :
    archive.saved (before ++ later) = archive.saved before ++ (archive.after before).saved later := by
  induction before generalizing archive with
  | nil => rfl
  | cons request rest ih =>
      rw [cons_append, saved_cons, saved_cons, ih, append_assoc, after_cons]

/-- A run leads from a reached archive to a reached one.  The savings that succeeded on the way
have the numbers that follow those given before. -/
theorem Reached.run (reached : Reached archive isOpened savings) (requests : List Request) :
    ∃ more, Reached (archive.after requests) (isOpened || requests.any Request.isOpening)
        (savings ++ more) ∧
      archive.saved requests = numbering reportEntry savings.length more := by
  induction requests generalizing archive isOpened savings with
  | nil =>
      refine ⟨[], ?_, rfl⟩
      rw [any_nil, Bool.or_false, append_nil]
      exact reached
  | cons request rest ih =>
      rcases reached.perform request with ⟨first, next, firstSaved⟩
      rcases ih next with ⟨more, final, moreSaved⟩
      refine ⟨first ++ more, ?_, ?_⟩
      · rw [any_cons, ← Bool.or_assoc, ← append_assoc, after_cons]
        exact final
      · rw [saved_cons, firstSaved, moreSaved, numbering_append, length_append]

/-- The answers of an archive without databases, after any run that started with nothing.

The savings that succeeded were numbered from one on in their order, and those of an earlier part
of the run are among them.  Each is found again under its number with the very report that was
given, and under any other number there is nothing.  Listing gives the reports by falling number.
Once the archive has been opened, opening it again leaves it as it is and every saving succeeds
with the next number; before that every saving is refused and leaves the archive as it is. -/
theorem run_only_appends (before later : List Request) :
    let start := unused false
    let archive := start.after (before ++ later)
    let saved := start.saved (before ++ later)
    saved.map Prod.fst = range' 1 saved.length ∧
    start.saved before <+: saved ∧
    (∀ entry ∈ saved, archive.get (.int entry.1) = .ok entry.2) ∧
    (∀ id : Int, (∀ entry ∈ saved, (entry.1 : Int) ≠ id) →
      archive.get (.int id) = .error (notFound (.int id))) ∧
    (∀ limit offset : Nat, archive.list limit offset =
      .ok (((saved.map Prod.snd).reverse.drop offset).take limit)) ∧
    (∀ directory, (before ++ later).any Request.isOpening = true →
      archive.openAt directory = archive) ∧
    (∀ now report, (before ++ later).any Request.isOpening = true →
      (archive.perform (.saving now report)).1 = .ok (.saved (saved.length + 1))) ∧
    (∀ now report, (before ++ later).any Request.isOpening = false →
      archive.perform (.saving now report) =
        (.error (.file .absent Folder.catalogPlace), archive)) := by
  intro start archive saved
  rcases Reached.unopened.run (before ++ later) with ⟨savings, reached, numbered⟩
  rw [nil_append, Bool.false_or] at reached
  have numbered : saved = numbering reportEntry 0 savings := numbered
  have numbers : saved.map Prod.fst = range' 1 savings.length := by
    rw [numbered, map_numbering]
    exact numbering_number
  have reports : saved.map Prod.snd = savings.map Saving.report := by
    rw [numbered, map_numbering]
    exact numbering_saving Saving.report
  have count : saved.length = savings.length := by
    rw [← length_map Prod.snd, reports, length_map]
  refine ⟨count ▸ numbers, ?_, ?_, ?_, ?_, ?_, ?_, ?_⟩
  · rw [show saved = start.saved (before ++ later) from rfl, saved_append]
    exact prefix_append _ _
  · intro entry member
    rcases mem_numbering (numbered ▸ member) with ⟨index, saving, present, rfl⟩
    rw [Nat.zero_add]
    exact reached.get_saved present
  · intro id unreturned
    apply reached.get_unknown
    by_contra inside
    have number : id.toNat ∈ saved.map Prod.fst := by
      rw [numbers, mem_range'_1]
      omega
    rcases mem_map.mp number with ⟨entry, member, equal⟩
    exact unreturned entry member (by omega)
  · intro limit offset
    rw [reports]
    exact reached.list_eq limit offset
  · intro directory wasOpened
    rw [wasOpened] at reached
    exact reached.openAt_eq directory
  · intro now report wasOpened
    rw [wasOpened] at reached
    rw [count]
    exact (reached.perform_saving now report).1
  · intro now report neverOpened
    rw [neverOpened] at reached
    have nothing : archive = unused false := reached.eq_unused
    rw [nothing]
    exact perform_saving_unopened now report

end Archive
end CodeQuality
