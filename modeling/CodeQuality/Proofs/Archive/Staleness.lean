import CodeQuality.Proofs.Archive.Crowd
import Mathlib.Algebra.GroupWithZero.Nat

namespace CodeQuality

open List

namespace Archive

/-!
Stale writings of the catalog.

A writing of the catalog is stale when the catalog is no longer what its writer has
seen.  It takes back what others have written since.

Every writing adds one thing to the catalog that was seen, a number or a place.  So no
catalog has taken in more than there have been writings, and once a writing was stale,
every catalog has taken in less.  Another stale writing may bring back what was lost,
but then it takes back something else.
-/

/-! ## Catalogs -/

namespace Catalog

/-- How much a catalog has taken in: numbers that were given, and places. -/
def content (catalog : Catalog) : Nat := catalog.lastNumber + catalog.places.length

theorem length_enterIn_le (number : Nat) (place : String) (places : List (Nat × String)) :
    (enter.enterIn number place places).length ≤ places.length + 1 := by
  induction places with
  | nil => exact Nat.le_refl 1
  | cons entry rest ih =>
      rcases entry with ⟨key, held⟩
      rw [enter.enterIn]
      by_cases here : key = number
      · rw [if_pos here, length_cons, length_cons]
        omega
      · rw [if_neg here, length_cons, length_cons]
        omega

theorem content_enter_le (catalog : Catalog) (number : Nat) (place : String) :
    (catalog.enter number place).content ≤ catalog.content + 1 := by
  have longer := length_enterIn_le number place catalog.places
  unfold content
  simp only [enter]
  omega

theorem mem_enterIn {number : Nat} {place : String} {places : List (Nat × String)}
    {entry : Nat × String} (member : entry ∈ enter.enterIn number place places) :
    entry = (number, place) ∨ entry ∈ places := by
  induction places with
  | nil => exact .inl (mem_singleton.mp member)
  | cons first rest ih =>
      rcases first with ⟨key, held⟩
      rw [enter.enterIn] at member
      by_cases here : key = number
      · rw [if_pos here] at member
        rcases mem_cons.mp member with equal | later
        · exact .inl (by rw [equal, here])
        · exact .inr (mem_cons_of_mem _ later)
      · rw [if_neg here] at member
        rcases mem_cons.mp member with equal | later
        · exact .inr (equal ▸ mem_cons_self)
        · rcases ih later with new | old
          · exact .inl new
          · exact .inr (mem_cons_of_mem _ old)

/-- A number that has been entered is found with its place. -/
theorem place?_enter_self (catalog : Catalog) (number : Nat) (place : String) :
    (catalog.enter number place).place? (toString number) = some place := by
  rw [place?, enter]
  dsimp only
  induction catalog.places with
  | nil => simp [enter.enterIn]
  | cons entry rest ih =>
      rcases entry with ⟨key, held⟩
      rw [enter.enterIn]
      by_cases here : key = number
      · simp [here]
      · rw [if_neg here, find?_cons_of_neg]
        · exact ih
        · rwa [decide_eq_true_eq, Text.numeral_inj]

theorem place?_enter_other (catalog : Catalog) {number other : Nat} (apart : other ≠ number)
    (place : String) :
    (catalog.enter number place).place? (toString other) = catalog.place? (toString other) := by
  have different : ¬ toString number = toString other := by
    rw [Text.numeral_inj]
    exact Ne.symm apart
  rw [place?, place?, enter]
  dsimp only
  induction catalog.places with
  | nil =>
      rw [enter.enterIn, find?_cons_of_neg (by rwa [decide_eq_true_eq])]
  | cons entry rest ih =>
      rcases entry with ⟨key, held⟩
      rw [enter.enterIn]
      by_cases here : key = number
      · subst here
        rw [if_pos rfl, find?_cons_of_neg (by rwa [decide_eq_true_eq]),
          find?_cons_of_neg (by rwa [decide_eq_true_eq])]
      · rw [if_neg here, find?_cons, find?_cons]
        cases decide (toString key = toString other) with
        | true => rfl
        | false => exact ih

theorem mem_of_place? {catalog : Catalog} {number : Nat} {place : String}
    (found : catalog.place? (toString number) = some place) : (number, place) ∈ catalog.places := by
  rcases Option.map_eq_some_iff.mp found with ⟨⟨key, held⟩, first, rfl⟩
  have chosen := find?_some first
  rw [decide_eq_true_eq, Text.numeral_inj] at chosen
  rw [← chosen]
  exact mem_of_find?_eq_some first

end Catalog

/-! ## Tidy folders -/

namespace Folder

/-- Every place of the catalog is made for its number. -/
def Placed (folder : Folder) : Prop :=
  ∀ entry ∈ folder.readCatalog.places, ∃ moment, entry.2 = newPlace moment entry.1

/-- The catalog lists the numbers that were given, each of them once, and leads to a document of
its own for each. -/
structure Tidy (folder : Folder) : Prop where
  made : folder.isMade = true
  numbers : (folder.readCatalog.places.map Prod.fst).Perm
    (range' 1 folder.readCatalog.lastNumber)
  placed : folder.Placed
  found : ∀ number ∈ range' 1 folder.readCatalog.lastNumber,
    (folder.find? (toString number)).isSome = true

variable {folder : Folder}

theorem mem_of_find? {number : Nat} {report : Json}
    (found : folder.find? (toString number) = some report) :
    number ∈ folder.readCatalog.places.map Prod.fst := by
  rcases Option.bind_eq_some_iff.mp found with ⟨place, placed, -⟩
  exact mem_map_of_mem (Catalog.mem_of_place? placed)

theorem Tidy.content_eq (tidy : folder.Tidy) :
    folder.readCatalog.content = 2 * folder.readCatalog.lastNumber := by
  have count := tidy.numbers.length_eq
  rw [length_map, length_range'] at count
  rw [Catalog.content, count]
  omega

/-- What is found in a tidy folder has one of the numbers that were given. -/
theorem Tidy.number_le (tidy : folder.Tidy) {number : Nat} {report : Json}
    (found : folder.find? (toString number) = some report) :
    1 ≤ number ∧ number ≤ folder.readCatalog.lastNumber := by
  have member := tidy.numbers.mem_iff.mp (mem_of_find? found)
  rw [mem_range'_1] at member
  omega

/-- A folder in which savings were made one after the other is tidy. -/
theorem Holds.tidy {savings : List Saving} (holds : folder.Holds savings) : folder.Tidy where
  made := holds.made
  numbers := by
    rw [holds.readCatalog_eq, map_fst_placeEntry]
  placed := by
    rw [Placed, holds.readCatalog_eq]
    intro entry member
    rcases mem_numbering member with ⟨index, saving, -, rfl⟩
    exact ⟨saving.moment, rfl⟩
  found := by
    rw [holds.readCatalog_eq]
    dsimp only
    intro number member
    rw [mem_range'_1] at member
    have inside : number - 1 < savings.length := by omega
    have found := holds.find?_numeral (getElem?_eq_getElem inside)
    rw [show number - 1 + 1 = number by omega] at found
    rw [found]
    rfl

end Folder

/-! ## Stale writings -/

/-- Whether the catalog is no longer what someone has seen who is about to write it. -/
def Saver.isStale (folder : Folder) (saver : Saver) : Bool :=
  match saver.stage.seen? with
  | some seen => decide (seen ≠ folder.readCatalog)
  | none => false

namespace Crowd

/-- Whether no writing of a series of steps is stale. -/
def neverStale (crowd : Crowd) : List Nat → Bool
  | [] => true
  | position :: rest =>
      !(crowd.savers[position]?.any (Saver.isStale crowd.folder)) &&
        (crowd.step position).neverStale rest

/-- How often the catalog has been written. -/
def writings (crowd : Crowd) : Nat := (crowd.savers.map fun saver => saver.stage.writings).sum

variable {crowd : Crowd} {position start : Nat} {saver : Saver}

theorem writings_set (there : crowd.savers[position]? = some saver) (next : Stage)
    (folder : Folder) :
    (Crowd.mk folder (crowd.savers.set position { saver with stage := next })).writings +
      saver.stage.writings = crowd.writings + next.writings := by
  rcases crowd with ⟨_, savers⟩
  unfold writings
  dsimp only at there ⊢
  induction savers generalizing position with
  | nil => cases there
  | cons first rest ih =>
      cases position with
      | zero =>
          cases there
          rw [set_cons_zero, map_cons, map_cons, sum_cons, sum_cons]
          dsimp only
          omega
      | succ position =>
          have later := @ih position there
          rw [set_cons_succ, map_cons, map_cons, sum_cons, sum_cons]
          omega

/-- A step leaves the catalog as it is, or writes it: then one thing is added to what was seen. -/
theorem Steps.catalog_cases {folder changed : Folder} {stage next : Stage}
    (steps : Steps folder saver stage changed next) :
    (stage.seen? = none ∧ changed.readCatalog = folder.readCatalog ∧
        next.writings = stage.writings ∧
        ∀ seen, next.seen? = some seen → seen = folder.readCatalog) ∨
      ∃ seen, stage.seen? = some seen ∧ next.seen? = none ∧ next.writings = stage.writings + 1 ∧
        changed.readCatalog.content ≤ seen.content + 1 := by
  cases steps with
  | counted =>
      refine .inr ⟨_, rfl, rfl, rfl, ?_⟩
      simp only [Folder.readCatalog, Option.getD_some, Catalog.content]
      omega
  | entered => exact .inr ⟨_, rfl, rfl, rfl, Catalog.content_enter_le _ _ _⟩
  | looked => exact .inl ⟨rfl, rfl, rfl, fun _ same => (Option.some.inj same).symm⟩
  | lookedAgain => exact .inl ⟨rfl, rfl, rfl, fun _ same => (Option.some.inj same).symm⟩
  | wrote => exact .inl ⟨rfl, rfl, rfl, fun _ absent => by cases absent⟩
  | rested => exact .inl ⟨rfl, rfl, rfl, fun _ absent => by cases absent⟩
  | gaveUp => exact .inl ⟨rfl, rfl, rfl, fun _ absent => by cases absent⟩

/-- What all catalogs that are in use have taken in since the beginning stays below the number of
writings by some amount. -/
structure Spent (start slack : Nat) (crowd : Crowd) : Prop where
  current : crowd.folder.readCatalog.content + slack ≤ start + crowd.writings
  seen : ∀ {position : Nat} {saver : Saver} {seen : Catalog},
    crowd.savers[position]? = some saver → saver.stage.seen? = some seen →
    seen.content + slack ≤ start + crowd.writings

theorem Spent.step {slack : Nat} (spent : Spent start slack crowd)
    (made : crowd.folder.isMade = true) (position : Nat) :
    Spent start slack (crowd.step position) := by
  rcases step_cases made position with ⟨-, idle⟩ | ⟨saver, folder, next, there, steps, moved⟩
  · rw [idle]
    exact spent
  rw [moved]
  have counted := writings_set there next folder
  have before := spent.current
  rcases steps.catalog_cases with ⟨-, same, writings, sees⟩ | ⟨seen, had, gone, writings, grown⟩
  · refine ⟨by rw [same]; omega, ?_⟩
    intro index other seen present has
    rcases getElem?_set_cases present with ⟨-, rfl⟩ | ⟨-, old⟩
    · rw [sees seen has]
      omega
    · have low := spent.seen old has
      omega
  · have low := spent.seen there had
    refine ⟨by dsimp only; omega, ?_⟩
    intro index other own present has
    rcases getElem?_set_cases present with ⟨-, rfl⟩ | ⟨-, old⟩
    · rw [gone] at has
      cases has
    · have below := spent.seen old has
      omega

/-- Only who has seen the present catalog has seen as much as there have been writings. -/
structure UpToDate (start : Nat) (crowd : Crowd) : Prop extends Spent start 0 crowd where
  latest : ∀ {position : Nat} {saver : Saver} {seen : Catalog},
    crowd.savers[position]? = some saver → saver.stage.seen? = some seen →
    seen.content = start + crowd.writings → seen = crowd.folder.readCatalog

theorem upToDate_gather (folder : Folder) (savings : List Saving) :
    UpToDate folder.readCatalog.content (gather folder savings) := by
  refine ⟨⟨Nat.le_add_right _ _, ?_⟩, ?_⟩ <;> intro position saver seen there has <;>
    rw [stage_gather there] at has <;> cases has

theorem UpToDate.step (upToDate : UpToDate start crowd) (made : crowd.folder.isMade = true)
    (position : Nat) : UpToDate start (crowd.step position) := by
  refine ⟨upToDate.toSpent.step made position, ?_⟩
  rcases step_cases made position with ⟨-, idle⟩ | ⟨saver, folder, next, there, steps, moved⟩
  · rw [idle]
    exact upToDate.latest
  rw [moved]
  have counted := writings_set there next folder
  intro index other seen present has full
  rcases getElem?_set_cases present with ⟨-, rfl⟩ | ⟨-, old⟩
  · rcases steps.catalog_cases with ⟨-, same, -, sees⟩ | ⟨-, -, gone, -⟩
    · exact (sees seen has).trans same.symm
    · rw [gone] at has
      cases has
  · rcases steps.catalog_cases with ⟨-, same, writings, -⟩ | ⟨-, -, -, writings, -⟩
    · exact (upToDate.latest old has (by omega)).trans same.symm
    · have low := upToDate.seen old has
      omega

/-- After a stale writing all catalogs in use have taken in less than there have been writings. -/
theorem UpToDate.step_of_stale (upToDate : UpToDate start crowd)
    (made : crowd.folder.isMade = true) (there : crowd.savers[position]? = some saver)
    (stale : saver.isStale crowd.folder = true) : Spent start 1 (crowd.step position) := by
  rcases step_cases made position with ⟨absent, -⟩ | ⟨own, folder, next, found, steps, moved⟩
  · rw [absent] at there
    cases there
  rw [there] at found
  cases found
  rw [moved]
  have counted := writings_set there next folder
  rw [Saver.isStale] at stale
  cases had : saver.stage.seen? with
  | none =>
      rw [had] at stale
      cases stale
  | some seen =>
      rw [had] at stale
      have different : seen ≠ crowd.folder.readCatalog := of_decide_eq_true stale
      have low := upToDate.seen there had
      have below : seen.content ≠ start + crowd.writings := fun full =>
        different (upToDate.latest there had full)
      rcases steps.catalog_cases with ⟨unseen, -⟩ | ⟨same, hadSame, gone, writings, grown⟩
      · rw [had] at unseen
        cases unseen
      · rw [had] at hadSame
        cases hadSame
        refine ⟨by dsimp only; omega, ?_⟩
        intro index other own present has
        rcases getElem?_set_cases present with ⟨-, rfl⟩ | ⟨-, old⟩
        · rw [gone] at has
          cases has
        · have others := upToDate.seen old has
          omega

theorem spent_of_stale (upToDate : UpToDate start crowd) (made : crowd.folder.isMade = true)
    {schedule : List Nat} (stale : crowd.neverStale schedule = false) :
    Spent start 1 (crowd.after schedule) := by
  induction schedule generalizing crowd with
  | nil => cases stale
  | cons position schedule ih =>
      have madeNext := isMade_step made position
      cases now : crowd.savers[position]?.any (Saver.isStale crowd.folder) with
      | true =>
          cases there : crowd.savers[position]? with
          | none =>
              rw [there] at now
              cases now
          | some saver =>
              rw [there] at now
              exact after_induction madeNext (Spent start 1) schedule
                (fun _ madeLater _ still => still.step madeLater _)
                (upToDate.step_of_stale made there now)
      | false =>
          rw [neverStale, now] at stale
          exact ih (upToDate.step made position) madeNext stale

/-! ## Numbers above those that were given before -/

/-- The catalogs in use count on from a number, and the numbers that have been taken are above
it. -/
structure Above (start : Nat) (crowd : Crowd) : Prop where
  current : start ≤ crowd.folder.readCatalog.lastNumber
  seen : ∀ {position : Nat} {saver : Saver} {seen : Catalog},
    crowd.savers[position]? = some saver → saver.stage.seen? = some seen → start ≤ seen.lastNumber
  number : ∀ {position : Nat} {saver : Saver} {number : Nat},
    crowd.savers[position]? = some saver → saver.stage.number? = some number → start < number

theorem Above.set (above : Above start crowd) {folder : Folder} {moved : Saver}
    (current : start ≤ folder.readCatalog.lastNumber)
    (seen : ∀ seen, moved.stage.seen? = some seen → start ≤ seen.lastNumber)
    (number : ∀ number, moved.stage.number? = some number → start < number) :
    Above start ⟨folder, crowd.savers.set position moved⟩ := by
  refine ⟨current, ?_, ?_⟩
  · intro index other own present has
    rcases getElem?_set_cases present with ⟨-, rfl⟩ | ⟨-, old⟩
    · exact seen own has
    · exact above.seen old has
  · intro index other own present has
    rcases getElem?_set_cases present with ⟨-, rfl⟩ | ⟨-, old⟩
    · exact number own has
    · exact above.number old has

theorem Above.step (above : Above start crowd) (made : crowd.folder.isMade = true)
    (position : Nat) : Above start (crowd.step position) := by
  rcases step_cases made position with ⟨-, idle⟩ | ⟨saver, folder, next, there, steps, moved⟩
  · rw [idle]
    exact above
  rw [moved]
  have sees := @above.seen position saver
  have takes := @above.number position saver
  generalize saver.stage = stage at steps sees takes
  have current := above.current
  cases steps with
  | looked => exact above.set current (fun _ same => by cases same; exact current) (by rintro _ ⟨⟩)
  | @counted seen =>
      have low := sees there rfl
      refine above.set ?_ (by rintro _ ⟨⟩) ?_
      · exact Nat.le_succ_of_le low
      · rintro _ ⟨⟩
        exact Nat.lt_succ_of_le low
  | wrote => exact above.set current (by rintro _ ⟨⟩) (fun _ has => takes there has)
  | lookedAgain =>
      exact above.set current (fun _ same => by cases same; exact current)
        (fun _ has => takes there has)
  | @entered _ seen =>
      have low := sees there rfl
      refine above.set ?_ (by rintro _ ⟨⟩) (fun _ has => takes there has)
      exact low
  | rested => exact above.set current (by rintro _ ⟨⟩) (fun _ has => takes there has)
  | gaveUp => exact above.set current (by rintro _ ⟨⟩) (by rintro _ ⟨⟩)

end Crowd

end Archive
end CodeQuality
