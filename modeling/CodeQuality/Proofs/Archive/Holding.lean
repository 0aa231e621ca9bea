import CodeQuality.Archive
import CodeQuality.Proofs.Text.Pieces
import Mathlib.Data.List.Sort

namespace CodeQuality

open List

namespace Archive

/-!
What the folder of an archive holds after a series of savings.

The invariant `Folder.Holds` ties the three parts of a folder together: the number
given last, the places of the catalog, and the documents at these places.  It fixes
the catalog completely.  Of the documents it only says what is found at the places of
the catalog, so it does not forbid other documents in the folder.

The place of a document is made from the moment of its saving and from its number.
Moments may repeat or run backwards; that no document replaces another rests on the
number alone.
-/

/-- A report, and the moment at which it was saved. -/
structure Saving where
  moment : Moment
  report : Json

/-- What is made of each saving and its number, where the numbers follow `given`. -/
def numbering {β : Type} (make : Nat → Saving → β) (given : Nat) : List Saving → List β
  | [] => []
  | saving :: rest => make (given + 1) saving :: numbering make (given + 1) rest

/-- The entry of a catalog for a saving. -/
def placeEntry (number : Nat) (saving : Saving) : Nat × String :=
  (number, Folder.newPlace saving.moment number)

/-! ## Numbering -/

section

variable {β γ : Type} {make : Nat → Saving → β} {given : Nat} {savings : List Saving}

theorem map_numbering (f : β → γ) :
    (numbering make given savings).map f =
      numbering (fun number saving => f (make number saving)) given savings := by
  induction savings generalizing given with
  | nil => rfl
  | cons saving rest ih => rw [numbering, map_cons, ih, numbering]

theorem numbering_number :
    numbering (fun number _ => number) given savings = range' (given + 1) savings.length := by
  induction savings generalizing given with
  | nil => rfl
  | cons saving rest ih => rw [numbering, ih, length_cons, range'_succ]

theorem numbering_saving (f : Saving → β) :
    numbering (fun _ saving => f saving) given savings = savings.map f := by
  induction savings generalizing given with
  | nil => rfl
  | cons saving rest ih => rw [numbering, ih, map_cons]

theorem length_numbering : (numbering make given savings).length = savings.length := by
  induction savings generalizing given with
  | nil => rfl
  | cons saving rest ih => rw [numbering, length_cons, ih, length_cons]

theorem numbering_append (more : List Saving) :
    numbering make given (savings ++ more) =
      numbering make given savings ++ numbering make (given + savings.length) more := by
  induction savings generalizing given with
  | nil => rfl
  | cons saving rest ih =>
      rw [cons_append, numbering, numbering, ih, cons_append, length_cons]
      rw [show given + 1 + rest.length = given + (rest.length + 1) by omega]

theorem mem_numbering {made : β} (member : made ∈ numbering make given savings) :
    ∃ index saving, savings[index]? = some saving ∧ made = make (given + index + 1) saving := by
  induction savings generalizing given with
  | nil => cases member
  | cons first rest ih =>
      rcases mem_cons.mp member with equal | later
      · exact ⟨0, first, rfl, equal⟩
      · rcases ih later with ⟨index, saving, present, equal⟩
        refine ⟨index + 1, saving, present, ?_⟩
        rw [equal, show given + 1 + index + 1 = given + (index + 1) + 1 by omega]

/-- Looking for a number finds what was made of the saving under it. -/
theorem find?_numbering {isWanted : β → Bool} {number : Nat}
    (tells : ∀ own saving, isWanted (make own saving) = decide (own = number)) :
    (numbering make given savings).find? isWanted =
      if number ≤ given then none else savings[number - given - 1]?.map (make number) := by
  induction savings generalizing given with
  | nil => simp [numbering]
  | cons first rest ih =>
      rw [numbering, find?_cons, tells]
      by_cases here : given + 1 = number
      · subst here
        simp
      · rw [decide_eq_false here, ih]
        by_cases low : number ≤ given
        · rw [if_pos low, if_pos (by omega)]
        · rw [if_neg low, if_neg (by omega)]
          rw [show number - given - 1 = number - (given + 1) - 1 + 1 by omega,
            getElem?_cons_succ]

end

theorem map_fst_placeEntry (given : Nat) (savings : List Saving) :
    (numbering placeEntry given savings).map Prod.fst = range' (given + 1) savings.length :=
  (map_numbering _).trans numbering_number

/-! ## Places and numbers -/

/-- A place determines its number, whatever the two moments are.  The last underscore of a place
stands right before its number, because no numeral contains one. -/
theorem newPlace_number {first second : Moment} {number other : Nat}
    (same : Folder.newPlace first number = Folder.newPlace second other) : number = other := by
  have spelled : ∀ (now : Moment) (n : Nat), (Folder.newPlace now n).toList =
      ("data/report_" ++ toString now.timestamp).toList ++
        '_' :: ((toString n).toList ++ ".json".toList) := by
    intro now n
    unfold Folder.newPlace
    generalize toString now.timestamp = stamp
    generalize toString n = numeral
    simp only [String.toList_append, append_assoc]
    rfl
  have clear : ∀ n : Nat, '_' ∉ (toString n).toList ++ ".json".toList := by
    intro n member
    rcases mem_append.mp member with inNumeral | inEnding
    · exact Text.notMem_numeral (by decide) n inNumeral
    · exact absurd inEnding (by decide)
  have texts := congrArg String.toList same
  rw [spelled, spelled] at texts
  have endings := (Text.append_mark_inj (clear number) (clear other) texts).2
  exact Text.numeral_inj.mp (String.toList_inj.mp (append_cancel_right endings))

/-- Entering a number that the catalog does not have adds it at the end. -/
theorem enterIn_of_fresh (number : Nat) (place : String) (places : List (Nat × String))
    (fresh : number ∉ places.map Prod.fst) :
    Catalog.enter.enterIn number place places = places ++ [(number, place)] := by
  induction places with
  | nil => rfl
  | cons entry rest ih =>
      rcases entry with ⟨key, held⟩
      rw [map_cons, mem_cons, not_or] at fresh
      rw [Catalog.enter.enterIn, if_neg (Ne.symm fresh.1), ih fresh.2, cons_append]

/-! ## The invariant -/

namespace Folder

/-- A folder holds the reports of a series of savings, in their order. -/
structure Holds (folder : Folder) (savings : List Saving) : Prop where
  made : folder.isMade = true
  catalog : folder.catalog = some ⟨savings.length, numbering placeEntry 0 savings⟩
  documents : ∀ index saving, savings[index]? = some saving →
    folder.documents.lookup (newPlace saving.moment (index + 1)) = some saving.report

namespace Holds

variable {folder : Folder} {savings : List Saving}

theorem readCatalog_eq (holds : folder.Holds savings) :
    folder.readCatalog = ⟨savings.length, numbering placeEntry 0 savings⟩ := by
  rw [readCatalog, holds.catalog, Option.getD_some]

/-- A folder that has just been made holds nothing. -/
theorem prepare_absent : absent.prepare.Holds [] where
  made := rfl
  catalog := rfl
  documents := by
    intro index saving present
    cases present

/-- Making a folder that is there changes nothing at all. -/
theorem prepare_eq (holds : folder.Holds savings) : folder.prepare = folder := by
  have catalog := holds.catalog
  have made := holds.made
  cases folder with
  | mk isMade held documents =>
      subst catalog made
      rfl

/-- Saving succeeds, gives the next number, and keeps every earlier report where it was. -/
theorem save (holds : folder.Holds savings) (now : Moment) (report : Json) :
    ∃ changed, folder.save now report = .ok (savings.length + 1, changed) ∧
      changed.Holds (savings ++ [⟨now, report⟩]) := by
  let number := savings.length + 1
  let place := newPlace now number
  have fresh : number ∉ (numbering placeEntry 0 savings).map Prod.fst := by
    rw [map_fst_placeEntry, mem_range'_1]
    omega
  have entered : (Catalog.mk number (numbering placeEntry 0 savings)).enter number place =
      ⟨number, numbering placeEntry 0 (savings ++ [⟨now, report⟩])⟩ := by
    rw [Catalog.enter, enterIn_of_fresh number place _ fresh, numbering_append, Nat.zero_add]
    rfl
  refine ⟨⟨true, some ⟨number, numbering placeEntry 0 (savings ++ [⟨now, report⟩])⟩,
    (place, report) :: folder.documents⟩, ?_, rfl, ?_, ?_⟩
  · rw [← entered]
    simp only [Folder.save, takeNumber, writeCatalog, writeDocument, holds.readCatalog_eq,
      holds.made, if_true, bind, Except.bind, pure, Except.pure]
    rfl
  · rw [length_append, length_singleton]
  · intro index saving present
    by_cases old : index < savings.length
    · have kept : savings[index]? = some saving := by
        rwa [getElem?_append_left old] at present
      have apart : newPlace saving.moment (index + 1) ≠ place := by
        intro same
        have equal := newPlace_number same
        omega
      rw [lookup_cons, beq_false_of_ne apart]
      exact holds.documents index saving kept
    · rw [getElem?_append_right (by omega), getElem?_singleton] at present
      have last : index = savings.length := by
        by_contra beyond
        rw [if_neg (by omega)] at present
        cases present
      rw [if_pos (by omega)] at present
      cases present
      rw [last, lookup_cons_self]

/-- The numeral of a number finds the report that was saved under it. -/
theorem find?_numeral (holds : folder.Holds savings) {index : Nat} {saving : Saving}
    (present : savings[index]? = some saving) :
    folder.find? (toString (index + 1)) = some saving.report := by
  have place : (numbering placeEntry 0 savings).find?
      (fun entry => toString entry.1 = toString (index + 1)) =
        some (placeEntry (index + 1) saving) := by
    have tells : ∀ own saving, decide (toString (placeEntry own saving).1 = toString (index + 1)) =
        decide (own = index + 1) := fun _ _ => decide_eq_decide.mpr Text.numeral_inj
    rw [find?_numbering tells, if_neg (by omega), Nat.sub_zero, Nat.add_sub_cancel, present]
    rfl
  simp only [Folder.find?, Catalog.place?, holds.readCatalog_eq, place, Option.map_some,
    Option.bind_eq_bind, Option.bind_some]
  exact holds.documents index saving present

/-- A text that is no numeral of a saved report's number finds nothing. -/
theorem find?_eq_none (holds : folder.Holds savings) {text : String}
    (foreign : ∀ index, index < savings.length → toString (index + 1) ≠ text) :
    folder.find? text = none := by
  have nowhere : (numbering placeEntry 0 savings).find? (fun entry => toString entry.1 = text) =
      none := by
    rw [List.find?_eq_none]
    intro entry member equal
    rcases mem_numbering member with ⟨index, saving, present, rfl⟩
    rw [Nat.zero_add] at equal
    exact foreign index (List.getElem?_eq_some_iff.mp present).1 (of_decide_eq_true equal)
  simp only [Folder.find?, Catalog.place?, holds.readCatalog_eq, nowhere, Option.map_none,
    Option.bind_eq_bind, Option.bind_none]

/-- The numbers of the catalog are those from one up to the number of savings, the highest
first.  They are sorted as numbers, not as numerals. -/
theorem numbers_eq (holds : folder.Holds savings) :
    folder.numbers = (range' 1 savings.length).reverse := by
  have permuted : folder.numbers.Perm (range' 1 savings.length).reverse := by
    rw [numbers, holds.readCatalog_eq, map_fst_placeEntry]
    exact (mergeSort_perm _ _).trans (reverse_perm _).symm
  have falling : folder.numbers.Pairwise (fun first second => second ≤ first) := by
    have sorted : folder.numbers.Pairwise (fun first second => decide (second ≤ first) = true) :=
      pairwise_mergeSort
        (fun first second third => by simp only [decide_eq_true_eq]; omega)
        (fun first second => by simp only [Bool.or_eq_true, decide_eq_true_eq]; omega)
        (folder.readCatalog.places.map Prod.fst)
    exact sorted.imp of_decide_eq_true
  have counted : (range' 1 savings.length).reverse.Pairwise
      (fun first second => second ≤ first) := by
    rw [pairwise_reverse]
    exact pairwise_le_range'
  exact permuted.eq_of_pairwise (fun first second _ _ below above => by omega) falling counted

/-- The reports are listed with the newest first, without the first `offset` and at most `limit`
of them.  No number of the catalog is left out. -/
theorem list_eq (holds : folder.Holds savings) (limit offset : Nat) :
    folder.list limit offset = (((savings.map Saving.report).reverse.drop offset).take limit) := by
  have found : (range' 1 savings.length).map (fun number => folder.find? (toString number)) =
      (savings.map Saving.report).map some := by
    apply ext_getElem
    · simp
    · intro index inFirst inSecond
      have inside : index < savings.length := by simpa using inSecond
      rw [getElem_map, getElem_range', getElem_map, getElem_map, Nat.one_mul,
        Nat.add_comm 1 index]
      exact holds.find?_numeral (getElem?_eq_getElem inside)
  calc
    folder.list limit offset =
        (((range' 1 savings.length).reverse.drop offset).take limit).filterMap
          (fun number => folder.find? (toString number)) := by
      rw [list, holds.numbers_eq, Text.slice_natCast]
    _ = ((((range' 1 savings.length).reverse.drop offset).take limit).map
          (fun number => folder.find? (toString number))).filterMap id := by
      rw [filterMap_map, Function.id_comp]
    _ = ((((savings.map Saving.report).map some).reverse.drop offset).take limit).filterMap id := by
      rw [map_take, map_drop, map_reverse, found]
    _ = (((savings.map Saving.report).reverse.drop offset).take limit) := by
      rw [← map_reverse, ← map_drop, ← map_take, filterMap_map,
        Function.id_comp, filterMap_some]

end Holds
end Folder

end Archive
end CodeQuality
