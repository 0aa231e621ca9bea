import CodeQuality.Proofs.Jobs.Workshop

namespace CodeQuality
namespace Archive

/-!
What is in an archive while several workers save their reports in it.

In a folder it is what a careful crowd has done, as long as no writing of the catalog is
stale.  In a table a saving is one step, so there it is a series of savings without any
condition.  In both cases the reports that were there at the beginning are found as
before, those that have been saved since are found under their numbers, and no number
is given twice.
-/

/-- Those who have not begun have done nothing, whatever they are going to save. -/
theorem Crowd.Careful.of_waiting {before : Folder} {crowd : Crowd} (careful : Careful before crowd)
    {savers : List Saver} (each : ∀ {position : Nat} {saver : Saver},
      savers[position]? = some saver → saver.stage = .waiting ∨
        crowd.savers[position]? = some saver) : Careful before ⟨crowd.folder, savers⟩ := by
  -- whoever has seen the catalog or has a number was there before
  have old : ∀ {position : Nat} {saver : Saver}, savers[position]? = some saver →
      saver.stage ≠ .waiting → crowd.savers[position]? = some saver :=
    fun there begun => (each there).resolve_left begun
  refine ⟨⟨careful.current, ?_, ?_⟩, ?_, ?_, careful.placed, careful.kept⟩
  · intro position saver seen there has
    exact careful.seen (old there fun waiting => by rw [waiting] at has; cases has) has
  · intro position saver number there has
    exact careful.number (old there fun waiting => by rw [waiting] at has; cases has) has
  · intro position saver there
    rcases each there with waiting | present
    · constructor <;> intro number has <;> rw [waiting] at has <;> cases has
    · exact careful.each present
  · intro first second saver other number thereFirst thereSecond hasFirst hasSecond
    exact careful.apart
      (old thereFirst fun waiting => by rw [waiting] at hasFirst; cases hasFirst)
      (old thereSecond fun waiting => by rw [waiting] at hasSecond; cases hasSecond)
      hasFirst hasSecond

/-- What has been saved in a table is there under its number, with the position of the one who has
saved it. -/
def Entered (given : Nat) (more : List (Nat × Saving)) (savers : List Saver) : Prop :=
  ∀ {position : Nat} {saver : Saver} {number : Nat}, savers[position]? = some saver →
    saver.stage.number? = some number →
    ∃ index, number = given + index + 1 ∧ more[index]? = some (position, saver.saving)

/-- What those who save in an archive have done since it was opened. -/
inductive Ledger (start archive : Archive) (savers : List Saver) : Prop where
  | folder (begins : start.opened = none) (tidy : start.folder.Tidy)
      (inFolder : archive.opened = none)
      (careful : Crowd.Careful start.folder ⟨archive.folder, savers⟩) : Ledger start archive savers
  | table {savings : List Saving} {more : List (Nat × Saving)} (begins : start.Opened savings)
      (inTable : archive.opened ≠ none) (isOpen : archive.Opened (savings ++ more.map Prod.snd))
      (entered : Entered savings.length more savers) : Ledger start archive savers

namespace Ledger

variable {start archive changed : Archive} {savers : List Saver} {position number : Nat}
  {saver : Saver}

/-- At the beginning nobody has done anything. -/
theorem of_opened {savings : List Saving} (isOpen : start.Opened savings) :
    Ledger start start [] := by
  cases isOpen with
  | folder reached =>
      have inFolder := reached.opened_eq
      cases reached with
      | opened _ _ holds =>
          exact .folder inFolder holds.tidy inFolder (Crowd.careful_gather holds.tidy [])
  | table folderless tabulated fitting =>
      have isOpen := Opened.table folderless tabulated fitting
      have alone : start.Opened (savings ++ ([] : List (Nat × Saving)).map Prod.snd) :=
        (List.append_nil savings).symm ▸ isOpen
      rcases tabulated with ⟨directory, inUse, -⟩
      exact .table isOpen (by simp [inUse]) alone fun there => by cases there

/-- A newcomer has done nothing, and so has someone who is handed something to save. -/
theorem of_waiting (ledger : Ledger start archive savers) {later : List Saver}
    (each : ∀ {position : Nat} {saver : Saver}, later[position]? = some saver →
      saver.stage = .waiting ∨ savers[position]? = some saver) : Ledger start archive later := by
  cases ledger with
  | folder begins tidy inFolder careful =>
      exact .folder begins tidy inFolder (careful.of_waiting each)
  | table begins inTable isOpen entered =>
      refine .table begins inTable isOpen fun there has => ?_
      rcases each there with waiting | old
      · rw [waiting] at has
        cases has
      · exact entered old has

/-- A turn that is not a stale writing leaves in the archive what is there. -/
theorem moves (ledger : Ledger start archive savers) (ready : archive.Ready) {next : Saver}
    (there : savers[position]? = some saver) (moves : archive.Moves saver changed next)
    (fresh : saver.isStale archive.folder = false) :
    Ledger start changed (savers.set position next) := by
  have sameUse := moves.opened_eq
  cases moves with
  | rested =>
      apply ledger.of_waiting
      intro index other present
      rcases Crowd.getElem?_set_cases present with ⟨rfl, rfl⟩ | ⟨-, old⟩
      · exact .inr there
      · exact .inr old
  | handed unsaved =>
      apply ledger.of_waiting
      intro index other present
      rcases Crowd.getElem?_set_cases present with ⟨rfl, rfl⟩ | ⟨-, old⟩
      · exact .inl rfl
      · exact .inr old
  | stepped _ inFolder advanced steps =>
      cases ledger with
      | table _ inTable _ _ => exact absurd inFolder inTable
      | folder begins tidy inFolder careful =>
          have unstale : savers[position]?.any (Saver.isStale archive.folder) = false := by
            rw [there]
            exact fresh
          have stepped := careful.step tidy (ready inFolder) unstale
          simp only [Crowd.step, there, advanced] at stepped
          exact .folder begins tidy inFolder stepped
  | saved _ inTable saved =>
      cases ledger with
      | folder _ _ inFolder _ => exact absurd inFolder inTable
      | @table savings more begins _ isOpen entered =>
          rcases isOpen.of_save saved with ⟨rfl, grown⟩
          rw [List.append_assoc] at grown
          have longer : changed.Opened
              (savings ++ (more ++ [(position, saver.saving)]).map Prod.snd) := by
            rw [List.map_append]
            exact grown
          refine .table begins (sameUse ▸ inTable) longer fun present has => ?_
          rcases Crowd.getElem?_set_cases present with ⟨rfl, rfl⟩ | ⟨-, old⟩
          · cases has
            rw [List.length_append, List.length_map]
            exact ⟨_, rfl, List.getElem?_concat_length⟩
          · rcases entered old has with ⟨place, rfl, held⟩
            have inside := (List.getElem?_eq_some_iff.mp held).1
            exact ⟨place, rfl, (List.getElem?_append_left inside).trans held⟩
  | full _ inTable =>
      cases ledger with
      | folder _ _ inFolder _ => exact absurd inFolder inTable
      | table begins _ isOpen entered =>
          refine .table begins inTable isOpen fun present has => ?_
          rcases Crowd.getElem?_set_cases present with ⟨rfl, rfl⟩ | ⟨-, old⟩
          · cases has
          · exact entered old has

/-- What has been saved is found. -/
theorem get_done (ledger : Ledger start archive savers) (there : savers[position]? = some saver)
    (done : saver.stage = .done number) : archive.get (.nat number) = .ok saver.saving.report := by
  cases ledger with
  | folder _ _ inFolder careful =>
      have held := careful.each there
      have found : archive.folder.find? (toString number) = some saver.saving.report :=
        Option.bind_eq_some_iff.mpr ⟨_, held.entered done, held.document (by rw [done]; rfl)⟩
      rw [Json.nat, get_of_folder inFolder, show toString (number : Int) = toString number from rfl,
        found]
  | table begins _ isOpen entered =>
      rcases entered there (by rw [done]; rfl) with ⟨index, rfl, present⟩
      apply isOpen.get_saved
      rw [List.getElem?_append_right (Nat.le_add_right _ _), Nat.add_sub_cancel_left,
        List.getElem?_map, present]
      rfl

/-- No number is given twice. -/
theorem apart (ledger : Ledger start archive savers) {second : Nat} {other : Saver}
    (there : savers[position]? = some saver) (thereSecond : savers[second]? = some other)
    (has : saver.stage.number? = some number) (hasSecond : other.stage.number? = some number) :
    position = second := by
  cases ledger with
  | folder _ _ _ careful => exact careful.apart there thereSecond has hasSecond
  | table _ _ _ entered =>
      rcases entered there has with ⟨index, rfl, present⟩
      rcases entered thereSecond hasSecond with ⟨same, numbers, presentSecond⟩
      rw [show index = same by omega, presentSecond] at present
      exact (congrArg Prod.fst (Option.some.inj present)).symm

/-- What was found at the beginning is found. -/
theorem get_of_start (ledger : Ledger start archive savers) {id : Int} {report : Json}
    (found : start.get (.int id) = .ok report) : archive.get (.int id) = .ok report := by
  cases ledger with
  | table begins _ isOpen _ => exact begins.get_of_grown isOpen found
  | folder begins _ inFolder careful =>
      rw [get_of_folder begins] at found
      rw [get_of_folder inFolder]
      cases inStart : start.folder.find? (toString id) with
      | none =>
          rw [inStart] at found
          cases found
      | some held =>
          rw [inStart] at found
          cases found
          -- what is found has the numeral of a number of the catalog
          rcases Option.bind_eq_some_iff.mp inStart with ⟨place, listed, -⟩
          rcases Option.map_eq_some_iff.mp listed with ⟨entry, first, -⟩
          have written := List.find?_some first
          rw [decide_eq_true_eq] at written
          rw [← written] at inStart ⊢
          rw [careful.kept inStart]

end Ledger
end Archive
end CodeQuality
