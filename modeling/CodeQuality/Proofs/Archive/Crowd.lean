import CodeQuality.Proofs.Archive.Holding

namespace CodeQuality
namespace Archive

/-!
Savings that are made at the same time.

A saving in a folder takes five steps.  It reads the catalog, and writes it with the
next number; it writes the document; it reads the catalog again, and writes it with the
place.  When several savings are made at the same time, the steps of one may come
between the steps of another, in any order.  Each reading and each writing is one step,
and what has been read may be out of date when it is used.

Here it is said what single steps do, and that nobody is kept from coming to an end.
Whether the reports are there afterwards is another matter.
-/

/-- How far a saving has come.  Before the catalog is written, it has been seen. -/
inductive Stage where
  | waiting
  | counting (seen : Catalog)
  | numbered (number : Nat)
  | written (number : Nat)
  | entering (number : Nat) (seen : Catalog)
  | done (number : Nat)
  | refused (fault : Fault)

namespace Stage

/-- The catalog that has been seen and is about to be written. -/
def seen? : Stage → Option Catalog
  | .counting seen => some seen
  | .entering _ seen => some seen
  | _ => none

/-- The number that has been taken. -/
def number? : Stage → Option Nat
  | .numbered number => some number
  | .written number => some number
  | .entering number _ => some number
  | .done number => some number
  | _ => none

/-- How often the catalog has been written. -/
def writings : Stage → Nat
  | .numbered _ => 1
  | .written _ => 1
  | .entering _ _ => 1
  | .done _ => 2
  | _ => 0

/-- How many steps have been taken, for a saving that has not been refused. -/
def steps? : Stage → Option Nat
  | .waiting => some 0
  | .counting _ => some 1
  | .numbered _ => some 2
  | .written _ => some 3
  | .entering _ _ => some 4
  | .done _ => some 5
  | .refused _ => none

end Stage

/-- Someone who saves a report. -/
structure Saver where
  saving : Saving
  stage : Stage

namespace Saver

/-- The place of the document, once there is a number. -/
def place (saver : Saver) (number : Nat) : String := Folder.newPlace saver.saving.moment number

/-- Go on to a stage when something could be written. -/
def proceed (folder : Folder) (saver : Saver) (outcome : Outcome Folder) (next : Stage) :
    Folder × Saver :=
  match outcome with
  | .ok changed => (changed, { saver with stage := next })
  | .error fault => (folder, { saver with stage := .refused fault })

/-- The next step of a saving, and the folder after it. -/
def advance (folder : Folder) (saver : Saver) : Folder × Saver :=
  match saver.stage with
  | .waiting => (folder, { saver with stage := .counting folder.readCatalog })
  | .counting seen =>
      let number := seen.lastNumber + 1
      saver.proceed folder (folder.writeCatalog { seen with lastNumber := number })
        (.numbered number)
  | .numbered number =>
      saver.proceed folder (folder.writeDocument (saver.place number) saver.saving.report)
        (.written number)
  | .written number => (folder, { saver with stage := .entering number folder.readCatalog })
  | .entering number seen =>
      saver.proceed folder (folder.writeCatalog (seen.enter number (saver.place number)))
        (.done number)
  | .done _ => (folder, saver)
  | .refused _ => (folder, saver)

end Saver

/-- A folder, and those who save reports in it. -/
structure Crowd where
  folder : Folder
  savers : List Saver

namespace Crowd

/-- Nobody has begun. -/
def gather (folder : Folder) (savings : List Saving) : Crowd :=
  ⟨folder, savings.map fun saving => ⟨saving, .waiting⟩⟩

/-- The saver at a position takes a step. -/
def step (crowd : Crowd) (position : Nat) : Crowd :=
  match crowd.savers[position]? with
  | none => crowd
  | some saver =>
      let (folder, next) := saver.advance crowd.folder
      ⟨folder, crowd.savers.set position next⟩

/-- The crowd after some steps, each of the saver at the position that is given. -/
def after (crowd : Crowd) (schedule : List Nat) : Crowd := schedule.foldl step crowd

/-- All savings have come to an end, each with its number. -/
structure Returned (crowd : Crowd) (savings : List Saving) (numbers : List Nat) : Prop where
  each : numbers.length = savings.length
  savers : crowd.savers = List.zipWith (fun saving number => ⟨saving, .done number⟩) savings numbers

variable {folder : Folder} {position : Nat} {saver : Saver} {stage : Stage} {crowd : Crowd}

theorem stage_gather {savings : List Saving}
    (there : (gather folder savings).savers[position]? = some saver) : saver.stage = .waiting := by
  rw [gather, List.getElem?_map] at there
  rcases Option.map_eq_some_iff.mp there with ⟨saving, -, rfl⟩
  rfl

/-- Someone who is alone takes five steps for a saving. -/
theorem after_alone (made : folder.isMade = true) (saving : Saving) :
    ∃ number changed, folder.save saving.moment saving.report = .ok (number, changed) ∧
      (gather folder [saving]).after [0, 0, 0, 0, 0] = ⟨changed, [⟨saving, .done number⟩]⟩ := by
  cases folder with
  | mk isMade catalog documents =>
      subst made
      exact ⟨_, _, rfl, rfl⟩

/-! ## Single steps -/

/-- What a step can do in a folder that has been made. -/
inductive Steps (folder : Folder) (saver : Saver) : Stage → Folder → Stage → Prop where
  | looked : Steps folder saver .waiting folder (.counting folder.readCatalog)
  | counted {seen : Catalog} :
      Steps folder saver (.counting seen)
        { folder with catalog := some { seen with lastNumber := seen.lastNumber + 1 } }
        (.numbered (seen.lastNumber + 1))
  | wrote {number : Nat} :
      Steps folder saver (.numbered number)
        { folder with documents := (saver.place number, saver.saving.report) :: folder.documents }
        (.written number)
  | lookedAgain {number : Nat} :
      Steps folder saver (.written number) folder (.entering number folder.readCatalog)
  | entered {number : Nat} {seen : Catalog} :
      Steps folder saver (.entering number seen)
        { folder with catalog := some (seen.enter number (saver.place number)) } (.done number)
  | rested {number : Nat} : Steps folder saver (.done number) folder (.done number)
  | gaveUp {fault : Fault} : Steps folder saver (.refused fault) folder (.refused fault)

theorem steps_advance (made : folder.isMade = true) (saver : Saver) :
    ∃ changed next, saver.advance folder = (changed, { saver with stage := next }) ∧
      Steps folder saver saver.stage changed next := by
  rcases saver with ⟨saving, stage⟩
  cases stage with
  | waiting => exact ⟨_, _, rfl, .looked⟩
  | counting seen =>
      refine ⟨_, _, ?_, .counted⟩
      simp only [Saver.advance, Folder.writeCatalog, if_pos made, Saver.proceed]
  | numbered number =>
      refine ⟨_, _, ?_, .wrote⟩
      simp only [Saver.advance, Folder.writeDocument, if_pos made, Saver.proceed]
  | written number => exact ⟨_, _, rfl, .lookedAgain⟩
  | entering number seen =>
      refine ⟨_, _, ?_, .entered⟩
      simp only [Saver.advance, Folder.writeCatalog, if_pos made, Saver.proceed]
  | done number => exact ⟨_, _, rfl, .rested⟩
  | refused fault => exact ⟨_, _, rfl, .gaveUp⟩

/-- No step removes the folder. -/
theorem Steps.isMade_eq {changed : Folder} {next : Stage}
    (steps : Steps folder saver stage changed next) : changed.isMade = folder.isMade := by
  cases steps <;> rfl

/-- In a folder that has been made, a step is one of the steps of the saver at its position. -/
theorem step_cases (made : crowd.folder.isMade = true) (position : Nat) :
    (crowd.savers[position]? = none ∧ crowd.step position = crowd) ∨
      ∃ saver folder next, crowd.savers[position]? = some saver ∧
        Steps crowd.folder saver saver.stage folder next ∧
        crowd.step position = ⟨folder, crowd.savers.set position { saver with stage := next }⟩ := by
  rw [step]
  cases there : crowd.savers[position]? with
  | none => exact .inl ⟨rfl, rfl⟩
  | some saver =>
      rcases steps_advance made saver with ⟨changed, next, advanced, steps⟩
      refine .inr ⟨saver, changed, next, rfl, steps, ?_⟩
      simp only [advanced]

theorem isMade_step (made : crowd.folder.isMade = true) (position : Nat) :
    (crowd.step position).folder.isMade = true := by
  rcases step_cases made position with ⟨-, same⟩ | ⟨saver, folder, next, -, steps, moved⟩
  · rw [same]
    exact made
  · rw [moved]
    exact steps.isMade_eq.trans made

/-- What every step keeps, a whole series of steps keeps. -/
theorem after_induction (made : crowd.folder.isMade = true) (invariant : Crowd → Prop)
    (schedule : List Nat)
    (kept : ∀ crowd : Crowd, crowd.folder.isMade = true → ∀ position, invariant crowd →
      invariant (crowd.step position)) (begins : invariant crowd) :
    invariant (crowd.after schedule) := by
  induction schedule generalizing crowd with
  | nil => exact begins
  | cons position schedule ih =>
      exact ih (isMade_step made position) (kept crowd made position begins)

/-- After a step, at a position is the one that took it or the one that was there. -/
theorem getElem?_set_cases {α : Type} {members : List α} {index : Nat} {moved member : α}
    (there : (members.set position moved)[index]? = some member) :
    (index = position ∧ member = moved) ∨ (index ≠ position ∧ members[index]? = some member) := by
  by_cases same : index = position
  · subst same
    rw [List.getElem?_set_self'] at there
    rcases Option.map_eq_some_iff.mp there with ⟨_, _, equal⟩
    exact .inl ⟨rfl, equal.symm⟩
  · rw [List.getElem?_set_ne (Ne.symm same)] at there
    exact .inr ⟨same, there⟩

/-! ## Coming to an end -/

/-- A step that is taken counts, up to the fifth. -/
theorem Steps.steps?_eq {changed : Folder} {next : Stage}
    (steps : Steps folder saver stage changed next) {taken : Nat}
    (before : stage.steps? = some taken) : next.steps? = some (min 5 (taken + 1)) := by
  cases steps <;> cases before <;> rfl

/-- After a series of steps everyone has taken those that were theirs, up to the fifth, with the
report that they began with. -/
theorem exists_after (made : crowd.folder.isMade = true) (schedule : List Nat) {taken : Nat}
    (there : crowd.savers[position]? = some saver) (before : saver.stage.steps? = some taken)
    (few : taken ≤ 5) :
    ∃ next, (crowd.after schedule).savers[position]? = some { saver with stage := next } ∧
      next.steps? = some (min 5 (taken + schedule.count position)) := by
  induction schedule generalizing crowd saver taken with
  | nil =>
      refine ⟨saver.stage, there, ?_⟩
      rw [before, List.count_nil, Nat.add_zero, Nat.min_eq_right few]
  | cons first schedule ih =>
      have madeNext := isMade_step made first
      rcases step_cases made first with ⟨absent, same⟩ | ⟨other, folder, next, found, steps, moved⟩
      · have apart : first ≠ position := by
          rintro rfl
          rw [absent] at there
          cases there
        rw [List.count_cons_of_ne apart]
        rw [same] at madeNext
        have rest := ih madeNext there before few
        rwa [← same] at rest
      · by_cases own : first = position
        · subst own
          rw [there] at found
          cases found
          have stays : (crowd.step first).savers[first]? = some { saver with stage := next } := by
            rw [moved, List.getElem?_set_self (List.getElem?_eq_some_iff.mp there).1]
          rcases ih madeNext stays (steps.steps?_eq before) (Nat.min_le_left _ _) with
            ⟨last, found, count⟩
          refine ⟨last, found, ?_⟩
          rw [count, List.count_cons_self]
          congr 1
          omega
        · have stays : (crowd.step first).savers[position]? = some saver := by
            rw [moved, List.getElem?_set_ne own, there]
          rw [List.count_cons_of_ne own]
          exact ih madeNext stays before few

theorem Stage.eq_done (all : stage.steps? = some 5) : ∃ number, stage = .done number := by
  cases stage with
  | done number => exact ⟨number, rfl⟩
  | _ => cases all

theorem length_after (made : crowd.folder.isMade = true) (schedule : List Nat) :
    (crowd.after schedule).savers.length = crowd.savers.length := by
  apply after_induction made fun later => later.savers.length = crowd.savers.length
  · intro later madeLater position same
    rcases step_cases madeLater position with ⟨-, idle⟩ | ⟨saver, folder, next, -, -, moved⟩
    · rw [idle, same]
    · rw [moved, List.length_set, same]
  · rfl

/-- When everyone has taken five steps, all savings have come to an end.  None is refused. -/
theorem exists_returned (made : folder.isMade = true) (savings : List Saving)
    {schedule : List Nat} (enough : ∀ position < savings.length, 5 ≤ schedule.count position) :
    ∃ numbers, ((gather folder savings).after schedule).Returned savings numbers := by
  have count : ((gather folder savings).after schedule).savers.length = savings.length :=
    (length_after made schedule).trans (List.length_map _)
  have ended : ∀ (position : Nat) saving, savings[position]? = some saving → ∃ number,
      ((gather folder savings).after schedule).savers[position]? =
        some (Saver.mk saving (.done number)) := by
    intro position saving present
    have there : (gather folder savings).savers[position]? = some ⟨saving, .waiting⟩ := by
      rw [gather, List.getElem?_map, present]
      rfl
    rcases exists_after made schedule there rfl (Nat.zero_le 5) with ⟨last, found, steps⟩
    have plenty := enough position (List.getElem?_eq_some_iff.mp present).1
    rw [Nat.zero_add, Nat.min_eq_left plenty] at steps
    rcases Stage.eq_done steps with ⟨number, rfl⟩
    exact ⟨number, found⟩
  generalize (gather folder savings).after schedule = final at count ended
  refine ⟨final.savers.map fun saver => saver.stage.number?.getD 0, ?_, ?_⟩
  · rw [List.length_map, count]
  · apply List.ext_getElem?
    intro position
    rw [List.getElem?_zipWith, List.getElem?_map]
    cases present : savings[position]? with
    | none =>
        rw [List.getElem?_eq_none_iff, ← count, ← List.getElem?_eq_none_iff] at present
        rw [present]
    | some saving =>
        rcases ended position saving present with ⟨number, found⟩
        rw [found]
        rfl

end Crowd
end Archive
end CodeQuality
