import CodeQuality.Proofs.Archive.Staleness

namespace CodeQuality

open List

namespace Archive

/-!
When savings at the same time are safe.

The savings of a crowd are safe when they have different numbers, each report is found
under its number, what was found before is found with the same report, and the folder is
tidy, so that the next crowd can begin there.  That is so exactly when no writing of the
catalog was stale.

In one direction, what everyone has done so far is in the folder at all times.  In the
other direction it is a matter of counting: with a stale writing there is less in the
catalog than has to be there.
-/

/-! ## Crowds without stale writings -/

/-- The number of a document that has been written. -/
def Stage.document? : Stage → Option Nat
  | .written number => some number
  | .entering number _ => some number
  | .done number => some number
  | _ => none

theorem Stage.number?_of_document? {stage : Stage} {number : Nat}
    (has : stage.document? = some number) : stage.number? = some number := by
  cases stage <;> cases has <;> rfl

/-- A new document does not replace the one of another number. -/
theorem Folder.find?_document {folder : Folder} (placed : folder.Placed) {number other : Nat}
    (apart : other ≠ number) {moment : Moment} {report own : Json}
    (found : folder.find? (toString other) = some report) :
    Folder.find? { folder with
      documents := (newPlace moment number, own) :: folder.documents } (toString other) =
      some report := by
  rcases Option.bind_eq_some_iff.mp found with ⟨place, listed, held⟩
  rcases placed _ (Catalog.mem_of_place? listed) with ⟨earlier, made⟩
  have different : place ≠ newPlace moment number := fun same =>
    apart (newPlace_number (made.symm.trans same))
  apply Option.bind_eq_some_iff.mpr
  refine ⟨_, listed, ?_⟩
  rw [lookup_cons, beq_false_of_ne different]
  exact held

theorem Folder.find?_entered (folder : Folder) {number other : Nat} (apart : other ≠ number)
    (place : String) :
    Folder.find? { folder with catalog := some (folder.readCatalog.enter number place) }
      (toString other) = folder.find? (toString other) :=
  congrArg (Option.bind · fun place => folder.documents.lookup place)
    (Catalog.place?_enter_other folder.readCatalog apart place)

/-- What someone has done so far is in the folder. -/
structure Saver.Kept (folder : Folder) (saver : Saver) : Prop where
  given : ∀ {number}, saver.stage.number? = some number →
    number ≤ folder.readCatalog.lastNumber
  document : ∀ {number}, saver.stage.document? = some number →
    folder.documents.lookup (saver.place number) = some saver.saving.report
  entered : ∀ {number}, saver.stage = .done number →
    folder.readCatalog.place? (toString number) = some (saver.place number)

namespace Crowd

/-- What everyone has done so far is in the folder, under different numbers, and so is what was
found before. -/
structure Careful (before : Folder) (crowd : Crowd) : Prop
    extends Above before.readCatalog.lastNumber crowd where
  each : ∀ {position : Nat} {saver : Saver}, crowd.savers[position]? = some saver →
    saver.Kept crowd.folder
  apart : ∀ {first second : Nat} {saver other : Saver} {number : Nat},
    crowd.savers[first]? = some saver → crowd.savers[second]? = some other →
    saver.stage.number? = some number → other.stage.number? = some number → first = second
  placed : crowd.folder.Placed
  kept : ∀ {number : Nat} {report : Json}, before.find? (toString number) = some report →
    crowd.folder.find? (toString number) = some report

theorem careful_gather {folder : Folder} (tidy : folder.Tidy) (savings : List Saving) :
    Careful folder (gather folder savings) := by
  refine ⟨⟨Nat.le_refl _, ?_, ?_⟩, ?_, ?_, tidy.placed, id⟩
  · intro position saver seen there has
    rw [stage_gather there] at has
    cases has
  · intro position saver number there has
    rw [stage_gather there] at has
    cases has
  · intro position saver there
    constructor <;> intro number has <;> rw [stage_gather there] at has <;> cases has
  · intro first second saver other number there _ has
    rw [stage_gather there] at has
    cases has

variable {before : Folder} {crowd : Crowd}

/-- Someone moves on in a folder where all that the others have done still is. -/
theorem Careful.set {folder : Folder} (careful : Careful before crowd) {position : Nat}
    {saver : Saver} {next : Stage} (there : crowd.savers[position]? = some saver)
    (above : Above before.readCatalog.lastNumber
      ⟨folder, crowd.savers.set position { saver with stage := next }⟩)
    (own : Saver.Kept folder { saver with stage := next })
    (others : ∀ {index : Nat} {other : Saver}, index ≠ position →
      crowd.savers[index]? = some other → other.Kept folder)
    (numbered : ∀ number, next.number? = some number → saver.stage.number? = some number ∨
      crowd.folder.readCatalog.lastNumber < number) (placed : folder.Placed)
    (kept : ∀ {number : Nat} {report : Json}, before.find? (toString number) = some report →
      folder.find? (toString number) = some report) :
    Careful before ⟨folder, crowd.savers.set position { saver with stage := next }⟩ := by
  -- a number that was taken right now is nobody else's
  have alone : ∀ {index : Nat} {other : Saver} {number : Nat}, index ≠ position →
      crowd.savers[index]? = some other → next.number? = some number →
      other.stage.number? ≠ some number := by
    intro index other number away present has same
    rcases numbered number has with old | new
    · exact away (careful.apart present there same old)
    · have low := (careful.each present).given same
      omega
  refine ⟨above, ?_, ?_, placed, kept⟩
  · intro index other present
    rcases getElem?_set_cases present with ⟨-, rfl⟩ | ⟨away, old⟩
    · exact own
    · exact others away old
  · intro first second one other number presentFirst presentSecond hasFirst hasSecond
    rcases getElem?_set_cases presentFirst with ⟨rfl, rfl⟩ | ⟨awayFirst, oldFirst⟩ <;>
      rcases getElem?_set_cases presentSecond with ⟨rfl, rfl⟩ | ⟨awaySecond, oldSecond⟩
    · rfl
    · exact absurd hasSecond (alone awaySecond oldSecond hasFirst)
    · exact absurd hasFirst (alone awayFirst oldFirst hasSecond)
    · exact careful.apart oldFirst oldSecond hasFirst hasSecond

/-- A step whose writing is not stale leaves in the folder what is in it. -/
theorem Careful.step (tidy : before.Tidy) (careful : Careful before crowd)
    (made : crowd.folder.isMade = true) {position : Nat}
    (fresh : crowd.savers[position]?.any (Saver.isStale crowd.folder) = false) :
    Careful before (crowd.step position) := by
  have aboveNext := careful.toAbove.step made position
  rcases step_cases made position with ⟨-, idle⟩ | ⟨saver, folder, next, there, steps, moved⟩
  · rw [idle]
    exact careful
  rw [moved] at aboveNext ⊢
  rw [there, Option.any_some] at fresh
  have ownKept := careful.each there
  rcases saver with ⟨saving, stage⟩
  dsimp only at steps
  cases steps with
  | looked =>
      refine careful.set there aboveNext ⟨?_, ?_, ?_⟩ (fun _ present => careful.each present) ?_
        careful.placed careful.kept <;> rintro _ ⟨⟩
  | lookedAgain =>
      refine careful.set there aboveNext ⟨ownKept.given, ownKept.document, ?_⟩
        (fun _ present => careful.each present) (fun _ has => .inl has) careful.placed careful.kept
      rintro _ ⟨⟩
  | rested =>
      exact careful.set there aboveNext ownKept (fun _ present => careful.each present)
        (fun _ has => .inl has) careful.placed careful.kept
  | gaveUp =>
      exact careful.set there aboveNext ownKept (fun _ present => careful.each present)
        (fun _ has => .inl has) careful.placed careful.kept
  | @counted seen =>
      have same : seen = crowd.folder.readCatalog := by
        simpa [Saver.isStale, Stage.seen?] using fresh
      subst same
      refine careful.set there aboveNext ⟨?_, ?_, ?_⟩ ?_ ?_ careful.placed ?_
      · rintro _ ⟨⟩
        exact Nat.le_refl _
      · rintro _ ⟨⟩
      · rintro _ ⟨⟩
      · intro index other away present
        have held := careful.each present
        exact ⟨fun has => Nat.le_succ_of_le (held.given has), held.document, held.entered⟩
      · rintro _ ⟨⟩
        exact .inr (Nat.lt_succ_self _)
      · exact careful.kept
  | @wrote number =>
      have low := careful.number there rfl
      refine careful.set there aboveNext ⟨ownKept.given, ?_, ?_⟩ ?_ (fun _ has => .inl has)
        careful.placed ?_
      · rintro _ ⟨⟩
        exact lookup_cons_self
      · rintro _ ⟨⟩
      · intro index other away present
        have held := careful.each present
        refine ⟨held.given, ?_, held.entered⟩
        intro own has
        have apart : other.place own ≠ Saver.place ⟨saving, .numbered number⟩ number := by
          intro same
          rw [newPlace_number same] at has
          exact away (careful.apart present there (Stage.number?_of_document? has) rfl)
        rw [lookup_cons, beq_false_of_ne apart]
        exact held.document has
      · intro own report found
        have high := (tidy.number_le found).2
        exact Folder.find?_document careful.placed (by omega) (careful.kept found)
  | @entered number seen =>
      have same : seen = crowd.folder.readCatalog := by
        simpa [Saver.isStale, Stage.seen?] using fresh
      subst same
      have low := careful.number there rfl
      refine careful.set there aboveNext ⟨ownKept.given, ownKept.document, ?_⟩ ?_
        (fun _ has => .inl has) ?_ ?_
      · rintro _ ⟨⟩
        exact Catalog.place?_enter_self _ _ _
      · intro index other away present
        have held := careful.each present
        refine ⟨held.given, held.document, ?_⟩
        intro own ended
        have apart : own ≠ number := by
          rintro rfl
          exact away (careful.apart present there (by rw [ended]; rfl) rfl)
        exact (Catalog.place?_enter_other _ apart _).trans (held.entered ended)
      · intro entry member
        rcases Catalog.mem_enterIn member with rfl | old
        · exact ⟨saving.moment, rfl⟩
        · exact careful.placed entry old
      · intro own report found
        have high := (tidy.number_le found).2
        rw [Folder.find?_entered _ (by omega)]
        exact careful.kept found

theorem Careful.after (tidy : before.Tidy) (careful : Careful before crowd)
    (made : crowd.folder.isMade = true) {schedule : List Nat}
    (fresh : crowd.neverStale schedule = true) : Careful before (crowd.after schedule) := by
  induction schedule generalizing crowd with
  | nil => exact careful
  | cons position schedule ih =>
      rw [neverStale, Bool.and_eq_true, Bool.not_eq_true'] at fresh
      exact ih (careful.step tidy made fresh.1) (isMade_step made position) fresh.2

/-! ## What has to be in the catalog -/

/-- Savings at the same time are safe: they have different numbers, each report is found under
its number, what was found before is found with the same report, and the folder is tidy. -/
structure Safe (before after : Folder) (savings : List Saving) (numbers : List Nat) : Prop where
  distinct : numbers.Nodup
  found : ∀ {position : Nat} {saving : Saving} {number : Nat}, savings[position]? = some saving →
    numbers[position]? = some number → after.find? (toString number) = some saving.report
  kept : ∀ {number : Nat} {report : Json}, before.find? (toString number) = some report →
    after.find? (toString number) = some report
  tidy : after.Tidy

namespace Returned

variable {savings : List Saving} {numbers : List Nat}

theorem getElem? (returned : crowd.Returned savings numbers) {position : Nat} {saving : Saving}
    {number : Nat} (present : savings[position]? = some saving)
    (given : numbers[position]? = some number) :
    crowd.savers[position]? = some ⟨saving, .done number⟩ := by
  rw [returned.savers, getElem?_zipWith, present, given]

/-- Every number that was given back is that of a saving. -/
theorem of_mem (returned : crowd.Returned savings numbers) {number : Nat}
    (member : number ∈ numbers) :
    ∃ (position : Nat) (saving : Saving), savings[position]? = some saving ∧
      numbers[position]? = some number := by
  rcases getElem?_of_mem member with ⟨position, given⟩
  have inside : position < savings.length := by
    rw [← returned.each]
    exact (List.getElem?_eq_some_iff.mp given).1
  exact ⟨position, savings[position], getElem?_eq_getElem inside, given⟩

theorem writings_eq (returned : crowd.Returned savings numbers) :
    crowd.writings = 2 * numbers.length := by
  have two : ∀ n ∈ crowd.savers.map fun saver => saver.stage.writings, n = 2 := by
    intro n member
    rcases mem_map.mp member with ⟨saver, inCrowd, rfl⟩
    rcases getElem?_of_mem inCrowd with ⟨position, there⟩
    rw [returned.savers, getElem?_zipWith] at there
    cases present : savings[position]? <;> cases given : numbers[position]? <;>
      rw [present, given] at there <;> cases there
    rfl
  have count : (crowd.savers.map fun saver => saver.stage.writings).length = numbers.length := by
    rw [length_map, returned.savers, length_zipWith, returned.each, Nat.min_self]
  rw [writings, eq_replicate_of_mem two, sum_replicate_nat, count, Nat.mul_comm]

/-- When the savings have different numbers and all reports are found, those from before as well,
then the old numbers and the new ones are numbers that were given, and all are in the catalog. -/
theorem subperm (returned : crowd.Returned savings numbers) (tidy : before.Tidy)
    (above : Above before.readCatalog.lastNumber crowd) (distinct : numbers.Nodup)
    (found : ∀ {position : Nat} {saving : Saving} {number : Nat},
      savings[position]? = some saving → numbers[position]? = some number →
      crowd.folder.find? (toString number) = some saving.report)
    (kept : ∀ {number : Nat} {report : Json}, before.find? (toString number) = some report →
      crowd.folder.find? (toString number) = some report)
    (given : ∀ number ∈ numbers, number ≤ crowd.folder.readCatalog.lastNumber) :
    (range' 1 before.readCatalog.lastNumber ++ numbers).Subperm
        (range' 1 crowd.folder.readCatalog.lastNumber) ∧
      (range' 1 before.readCatalog.lastNumber ++ numbers).Subperm
        (crowd.folder.readCatalog.places.map Prod.fst) := by
  have new : ∀ number ∈ numbers, before.readCatalog.lastNumber < number := by
    intro number member
    rcases returned.of_mem member with ⟨position, saving, present, has⟩
    exact above.number (returned.getElem? present has) rfl
  have nodup : (range' 1 before.readCatalog.lastNumber ++ numbers).Nodup := by
    rw [nodup_append]
    refine ⟨nodup_range', distinct, ?_⟩
    intro low lowMember high highMember same
    have bound := new high highMember
    rw [mem_range'_1] at lowMember
    omega
  have begins := above.current
  constructor <;> apply subperm_of_subset nodup <;> intro number member
  · rw [mem_range'_1]
    rcases mem_append.mp member with low | high
    · rw [mem_range'_1] at low
      omega
    · have bound := new number high
      have last := given number high
      omega
  · rcases mem_append.mp member with low | high
    · rcases Option.isSome_iff_exists.mp (tidy.found number low) with ⟨report, wasFound⟩
      exact Folder.mem_of_find? (kept wasFound)
    · rcases returned.of_mem high with ⟨position, saving, present, has⟩
      exact Folder.mem_of_find? (found present has)

end Returned

variable {numbers : List Nat}

/-- A catalog in which all these numbers are has given as many, and has as many places. -/
theorem count_le {catalog : Catalog} {start : Nat}
    (inRange : (range' 1 start ++ numbers).Subperm (range' 1 catalog.lastNumber))
    (inPlaces : (range' 1 start ++ numbers).Subperm (catalog.places.map Prod.fst)) :
    start + numbers.length ≤ catalog.lastNumber ∧
      start + numbers.length ≤ catalog.places.length := by
  have fewest := inRange.length_le
  have fewestPlaces := inPlaces.length_le
  rw [length_append, length_range', length_range'] at fewest
  rw [length_append, length_range', length_map] at fewestPlaces
  exact ⟨fewest, fewestPlaces⟩

/-- What a careful crowd has saved is safe. -/
theorem Careful.safe (tidy : before.Tidy) (careful : Careful before crowd)
    (made : crowd.folder.isMade = true) {savings : List Saving}
    (returned : crowd.Returned savings numbers) (spent : Spent before.readCatalog.content 0 crowd) :
    Safe before crowd.folder savings numbers := by
  have found : ∀ {position : Nat} {saving : Saving} {number : Nat},
      savings[position]? = some saving → numbers[position]? = some number →
      crowd.folder.find? (toString number) = some saving.report := by
    intro position saving number present given
    have held := careful.each (returned.getElem? present given)
    exact Option.bind_eq_some_iff.mpr ⟨_, held.entered rfl, held.document rfl⟩
  have distinct : numbers.Nodup := by
    rw [nodup_iff_getElem?_ne_getElem?]
    intro first second order inside same
    rw [getElem?_eq_getElem inside] at same
    rw [returned.each] at inside
    have one := returned.getElem? (getElem?_eq_getElem (order.trans inside)) same
    have other := returned.getElem? (getElem?_eq_getElem inside)
      (getElem?_eq_getElem (returned.each ▸ inside))
    exact absurd (careful.apart one other rfl rfl) (Nat.ne_of_lt order)
  have given : ∀ number ∈ numbers, number ≤ crowd.folder.readCatalog.lastNumber := by
    intro number member
    rcases returned.of_mem member with ⟨position, saving, present, has⟩
    exact (careful.each (returned.getElem? present has)).given rfl
  rcases returned.subperm tidy careful.toAbove distinct found careful.kept given with
    ⟨inRange, inPlaces⟩
  -- there is no room in the catalog for anything else
  rcases count_le inRange inPlaces with ⟨fewest, fewestPlaces⟩
  have room := spent.current
  rw [tidy.content_eq, returned.writings_eq, Catalog.content] at room
  have sameRange := inRange.perm_of_length_le (by
    rw [length_append, length_range', length_range']
    omega)
  have samePlaces := inPlaces.perm_of_length_le (by
    rw [length_append, length_range', length_map]
    omega)
  refine ⟨distinct, found, careful.kept, made, samePlaces.symm.trans sameRange, careful.placed, ?_⟩
  intro number member
  rcases mem_append.mp (sameRange.mem_iff.mpr member) with earlier | new
  · rcases Option.isSome_iff_exists.mp (tidy.found number earlier) with ⟨report, wasFound⟩
    rw [careful.kept wasFound]
    rfl
  · rcases returned.of_mem new with ⟨position, saving, present, has⟩
    rw [found present has]
    rfl

/-- After safe savings everything that was ever written is in the catalog. -/
theorem Safe.le_content (tidy : before.Tidy) (above : Above before.readCatalog.lastNumber crowd)
    {savings : List Saving} (returned : crowd.Returned savings numbers)
    (safe : Safe before crowd.folder savings numbers) :
    before.readCatalog.content + crowd.writings ≤ crowd.folder.readCatalog.content := by
  have given : ∀ number ∈ numbers, number ≤ crowd.folder.readCatalog.lastNumber := by
    intro number member
    rcases returned.of_mem member with ⟨position, saving, present, has⟩
    exact (safe.tidy.number_le (safe.found present has)).2
  rcases returned.subperm tidy above safe.distinct safe.found safe.kept given with
    ⟨inRange, inPlaces⟩
  rcases count_le inRange inPlaces with ⟨fewest, fewestPlaces⟩
  rw [tidy.content_eq, returned.writings_eq, Catalog.content]
  omega

/-! ## One after the other at the catalog -/

/-- Whenever someone takes a step, nobody else has seen the catalog and not written it yet. -/
def Exclusive (crowd : Crowd) : List Nat → Prop
  | [] => True
  | position :: rest =>
      (∀ (index : Nat) (saver : Saver), index ≠ position → crowd.savers[index]? = some saver →
        saver.stage.seen? = none) ∧ (crowd.step position).Exclusive rest

/-- As long as reading the catalog and writing it is a matter of one at a time, no writing is
stale.  Documents may be written in between. -/
theorem neverStale_of_exclusive (made : crowd.folder.isMade = true)
    (current : ∀ {index : Nat} {saver : Saver} {seen : Catalog},
      crowd.savers[index]? = some saver → saver.stage.seen? = some seen →
      seen = crowd.folder.readCatalog) {schedule : List Nat}
    (exclusive : crowd.Exclusive schedule) : crowd.neverStale schedule = true := by
  induction schedule generalizing crowd with
  | nil => rfl
  | cons position schedule ih =>
      rcases exclusive with ⟨others, rest⟩
      have fresh : crowd.savers[position]?.any (Saver.isStale crowd.folder) = false := by
        cases there : crowd.savers[position]? with
        | none => rfl
        | some saver =>
            rw [Option.any_some, Saver.isStale]
            cases has : saver.stage.seen? with
            | none => rfl
            | some seen => exact decide_eq_false (not_not_intro (current there has))
      rw [neverStale, fresh]
      refine ih (isMade_step made position) ?_ rest
      rcases step_cases made position with ⟨-, idle⟩ | ⟨saver, folder, next, there, steps, moved⟩
      · rw [idle]
        exact current
      rw [moved]
      intro index other seen present has
      rcases getElem?_set_cases present with ⟨-, rfl⟩ | ⟨away, old⟩
      · rcases steps.catalog_cases with ⟨-, same, -, sees⟩ | ⟨-, -, gone, -⟩
        · exact (sees seen has).trans same.symm
        · rw [gone] at has
          cases has
      · rw [others index other away old] at has
        cases has

/-! ## All together -/

/-- When everyone has taken five steps, in whatever order, all savings have come to an end with a
number.  They are safe exactly when no writing of the catalog was stale, and so they are when one
at a time reads the catalog and writes it. -/
theorem simultaneous_savings_safe_iff {folder : Folder} (tidy : folder.Tidy)
    (savings : List Saving) {schedule : List Nat}
    (enough : ∀ position < savings.length, 5 ≤ schedule.count position) :
    ∃ numbers, ((gather folder savings).after schedule).Returned savings numbers ∧
      ((gather folder savings).neverStale schedule = true ↔
        Safe folder ((gather folder savings).after schedule).folder savings numbers) ∧
      ((gather folder savings).Exclusive schedule →
        Safe folder ((gather folder savings).after schedule).folder savings numbers) := by
  have made : (gather folder savings).folder.isMade = true := tidy.made
  have upToDate := upToDate_gather folder savings
  have careful := careful_gather tidy savings
  rcases exists_returned made savings enough with ⟨numbers, returned⟩
  have safeIfFresh : (gather folder savings).neverStale schedule = true →
      Safe folder ((gather folder savings).after schedule).folder savings numbers := by
    intro fresh
    have spent := after_induction made (Spent folder.readCatalog.content 0) schedule
      (fun _ madeLater _ still => still.step madeLater _) upToDate.toSpent
    have madeAfter := after_induction made (fun later => later.folder.isMade = true) schedule
      (fun _ madeLater position _ => isMade_step madeLater position) made
    exact (careful.after tidy made fresh).safe tidy madeAfter returned spent
  refine ⟨numbers, returned, ⟨safeIfFresh, ?_⟩, ?_⟩
  · intro safe
    by_contra stale
    have above := after_induction made (Above folder.readCatalog.lastNumber) schedule
      (fun _ madeLater _ still => still.step madeLater _) careful.toAbove
    have spent := (spent_of_stale upToDate made (Bool.eq_false_of_not_eq_true stale)).current
    have full := safe.le_content tidy above returned
    omega
  · intro exclusive
    apply safeIfFresh
    refine neverStale_of_exclusive made ?_ exclusive
    intro index saver seen there has
    rw [stage_gather there] at has
    cases has

/-! ## Two at a time -/

/-- Two reports that are saved in the same second. -/
def twoReports : List Saving :=
  [⟨⟨⟨739253⟩, 0⟩, .str "first"⟩, ⟨⟨⟨739253⟩, 1⟩, .str "second"⟩]

/-- The steps of the two alternate where that does no harm. -/
def alternating : List Nat := [0, 0, 1, 1, 0, 1, 1, 1, 0, 0]

theorem alternating_safe :
    ∃ numbers, ((gather Folder.absent.prepare twoReports).after alternating).Returned twoReports
        numbers ∧
      Safe Folder.absent.prepare ((gather Folder.absent.prepare twoReports).after alternating).folder
        twoReports numbers := by
  have fresh : (gather Folder.absent.prepare twoReports).neverStale alternating = true := by
    decide
  rcases simultaneous_savings_safe_iff Folder.Holds.prepare_absent.tidy twoReports
    (show ∀ position < 2, 5 ≤ alternating.count position by decide) with ⟨numbers, returned, safe, -⟩
  exact ⟨numbers, returned, safe.mp fresh⟩

/-- Both look before one of them writes. -/
def rushed : List Nat := [0, 1, 0, 1, 0, 1, 0, 1, 0, 1]

/-- Each takes a number in peace, and then both look before one of them enters the place. -/
def halfRushed : List Nat := [0, 0, 1, 1, 0, 1, 0, 1, 0, 1]

/-- Two savings at the same time may both have the number one, with one of the reports gone, or
have different numbers, and again one of the reports is gone. -/
theorem rushed_savings_lose_report :
    let final := (gather Folder.absent.prepare twoReports).after rushed
    let other := (gather Folder.absent.prepare twoReports).after halfRushed
    (final.Returned twoReports [1, 1] ∧ final.folder.find? (toString 1) = some (.str "second")) ∧
      other.Returned twoReports [1, 2] ∧ other.folder.find? (toString 1) = none :=
  ⟨⟨⟨rfl, rfl⟩, rfl⟩, ⟨rfl, rfl⟩, rfl⟩

end Crowd
end Archive
end CodeQuality
