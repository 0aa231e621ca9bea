import CodeQuality.Answers
import CodeQuality.Proofs.Text.Scanning
import Mathlib.Data.List.TakeWhile

namespace CodeQuality
namespace Answers

/-!
Names of source files in a text.

A name is made of the characters that a path can have, ends like a source file and has
something before the ending.  The name that is found in a text is the one that begins first,
and of those that begin there it is the longest.
-/

open Text List

/-- A text ends like a source file and has something before the ending. -/
def IsEnded (name : List Char) : Prop :=
  3 < name.length ∧ (".py".toList <:+ name ∨ ".js".toList <:+ name)

/-- A text is the name of a source file. -/
structure IsSourceName (name : List Char) : Prop where
  letters : ∀ c ∈ name, isFileChar c = true
  ended : IsEnded name

/-- A name is the first one of a text. -/
structure IsFirstName (text name : List Char) : Prop where
  isName : IsSourceName name
  /-- No name begins earlier, and none that begins there is longer. -/
  first : ∃ front rest, text = front ++ name ++ rest ∧ ∀ before other after,
    text = before ++ other ++ after → IsSourceName other →
      front.length < before.length ∨
        front.length = before.length ∧ other.length ≤ name.length

/-! ## The longest name at the front -/

/-- How the name of a source file ends. -/
def IsEnding (ending : List Char) : Prop := ending = ".py".toList ∨ ending = ".js".toList

theorem IsEnding.length {ending : List Char} (isEnding : IsEnding ending) : ending.length = 3 := by
  rcases isEnding with rfl | rfl
  · rfl
  · rfl

theorem isEnded_append {stem ending : List Char} (present : stem ≠ []) (isEnding : IsEnding ending) :
    IsEnded (stem ++ ending) := by
  have positive := length_pos_iff.mpr present
  have long := isEnding.length
  refine ⟨by rw [length_append]; omega, ?_⟩
  rcases isEnding with rfl | rfl
  · exact Or.inl (suffix_append _ _)
  · exact Or.inr (suffix_append _ _)

variable {name done text : List Char}

theorem IsEnded.exists_stem (ended : IsEnded name) :
    ∃ stem ending, stem ≠ [] ∧ IsEnding ending ∧ name = stem ++ ending := by
  rcases ended with ⟨long, ⟨stem, rfl⟩ | ⟨stem, rfl⟩⟩
  · refine ⟨stem, _, ?_, Or.inl rfl, rfl⟩
    rintro rfl
    exact absurd long (by decide)
  · refine ⟨stem, _, ?_, Or.inr rfl, rfl⟩
    rintro rfl
    exact absurd long (by decide)

/-- A name ends here if an ending follows and something stands before. -/
theorem opens_iff :
    ((".py".toList.isPrefixOf text || ".js".toList.isPrefixOf text) && !done.isEmpty) = true ↔
      (∃ ending, IsEnding ending ∧ ending <+: text) ∧ done ≠ [] := by
  rw [Bool.and_eq_true, Bool.or_eq_true, isPrefixOf_iff_prefix, isPrefixOf_iff_prefix,
    Bool.not_eq_true', isEmpty_eq_false_iff]
  refine and_congr_left fun _ => ⟨?_, ?_⟩
  · rintro (first | second)
    · exact ⟨_, Or.inl rfl, first⟩
    · exact ⟨_, Or.inr rfl, second⟩
  · rintro ⟨ending, rfl | rfl, opened⟩
    · exact Or.inl opened
    · exact Or.inr opened

theorem length_lt_of_longestFile? (absent : longestFile? done text = none) {other : List Char}
    (opened : other <+: done.reverse ++ text) (ended : IsEnded other) :
    other.length < done.length + 3 := by
  induction text generalizing done with
  | nil =>
      have short := opened.length_le
      rw [append_nil, length_reverse] at short
      omega
  | cons c rest ih =>
      rw [longestFile?] at absent
      cases deeper : longestFile? (c :: done) rest with
      | some found =>
          rw [deeper] at absent
          cases absent
      | none =>
          rw [deeper] at absent
          dsimp only at absent
          split at absent
          next => cases absent
          next closed =>
            rw [opens_iff] at closed
            have whole : done.reverse ++ c :: rest = (c :: done).reverse ++ rest := by
              rw [reverse_cons, append_assoc, singleton_append]
            have within := ih deeper (whole ▸ opened)
            rw [length_cons] at within
            by_contra long
            -- the name would end with the ending that opens the rest
            have length : other.length = done.length + 3 := by omega
            rcases ended.exists_stem with ⟨stem, ending, present, isEnding, rfl⟩
            rcases opened with ⟨more, same⟩
            rw [length_append, isEnding.length, Nat.add_right_cancel_iff] at length
            rw [append_assoc] at same
            have parts := append_inj same (length.trans length_reverse.symm)
            apply closed
            refine ⟨⟨ending, isEnding, more, parts.2⟩, ?_⟩
            rintro rfl
            exact present parts.1

theorem isLongest_of_longestFile? (found : longestFile? done text = some name) :
    name <+: done.reverse ++ text ∧ IsEnded name ∧
      ∀ other, other <+: done.reverse ++ text → IsEnded other → other.length ≤ name.length := by
  induction text generalizing done with
  | nil => cases found
  | cons c rest ih =>
      have whole : done.reverse ++ c :: rest = (c :: done).reverse ++ rest := by
        rw [reverse_cons, append_assoc, singleton_append]
      rw [longestFile?] at found
      cases deeper : longestFile? (c :: done) rest with
      | some better =>
          rw [deeper] at found
          cases found
          rw [whole]
          exact ih deeper
      | none =>
          rw [deeper] at found
          dsimp only at found
          split at found
          next opens =>
            rcases opens_iff.mp opens with ⟨⟨ending, isEnding, more, same⟩, present⟩
            have cut : (c :: rest).take 3 = ending := by
              rw [← same, ← isEnding.length, take_left]
            rw [cut] at found
            cases found
            refine ⟨?_, isEnded_append (mt reverse_eq_nil_iff.mp present) isEnding, ?_⟩
            · rw [← same, ← append_assoc]
              exact prefix_append _ _
            · intro other opened ended
              have short := length_lt_of_longestFile? deeper (whole ▸ opened) ended
              rw [length_cons] at short
              rw [length_append, length_reverse, isEnding.length]
              omega
          next => cases found

/-- What is read at the front of a text is the longest name there. -/
theorem isLongest_of_fileName {left : List Char} (read : fileName text = some (name, left)) :
    name <+: text ∧ IsSourceName name ∧
      ∀ other, other <+: text → IsSourceName other → other.length ≤ name.length := by
  rcases Option.map_eq_some_iff.mp read with ⟨found, longest, same⟩
  cases same
  rcases isLongest_of_longestFile? longest with ⟨opened, ended, most⟩
  refine ⟨opened.trans (List.takeWhile_prefix _), ⟨?_, ended⟩, ?_⟩
  · intro c member
    exact mem_takeWhile_imp (opened.subset member)
  · intro other opens isName
    exact most other (prefix_takeWhile_of_forall opens isName.letters) isName.ended

/-- Where nothing is read, no name begins. -/
theorem not_prefix_of_fileName (absent : fileName text = none) (isName : IsSourceName name) :
    ¬ name <+: text := by
  intro opens
  have short := length_lt_of_longestFile? (Option.map_eq_none_iff.mp absent)
    (prefix_takeWhile_of_forall opens isName.letters) isName.ended
  have long := isName.ended.1
  exact absurd short (by rw [length_nil]; omega)

/-! ## The first name -/

theorem IsSourceName.ne_nil (isName : IsSourceName name) : name ≠ [] := by
  rintro rfl
  exact absurd isName.ended.1 (by decide)

/-- The name that is found in a text is its first one. -/
theorem first?_fileName_cases (text : List Char) :
    (∃ found, first? fileName text = some found ∧ IsFirstName text found.value) ∨
      first? fileName text = none ∧ ∀ name, IsSourceName name → ¬ name <:+: text := by
  rcases exists_first_match fileName text with
    nowhere | ⟨front, rest, name, left, rfl, present, read, earlier⟩
  · refine Or.inr ⟨by rw [first?, findMatches, matchesFrom_eq_nil nowhere]; rfl, ?_⟩
    rintro name isName ⟨before, after, rfl⟩
    have absent := nowhere (name ++ after) (append_ne_nil_of_left_ne_nil isName.ne_nil _)
      (by rw [append_assoc]; exact suffix_append _ _)
    exact not_prefix_of_fileName absent isName (prefix_append _ _)
  · rcases head?_matchesFrom earlier present read 0 1 none with ⟨found, is, _, _, rfl⟩
    rcases isLongest_of_fileName read with ⟨⟨more, rfl⟩, isName, longest⟩
    refine Or.inl ⟨found, is, isName, front, more, (append_assoc _ _ _).symm, ?_⟩
    intro before other after same isOther
    rw [append_assoc before] at same
    rcases append_eq_append_iff.mp same with ⟨between, rfl, rest⟩ | ⟨between, rfl, rest⟩
    · cases between with
      | nil =>
          right
          refine ⟨by rw [append_nil], longest other ?_ isOther⟩
          rw [rest]
          exact prefix_append _ _
      | cons c between => exact Or.inl (by rw [length_append, length_cons]; omega)
    · cases between with
      | nil =>
          right
          refine ⟨by rw [append_nil], longest other ?_ isOther⟩
          rw [nil_append] at rest
          rw [← rest]
          exact prefix_append _ _
      | cons c between =>
          -- an earlier name would have been read
          have absent := earlier (c :: between) (cons_ne_nil _ _) (suffix_append _ _)
          rw [← rest] at absent
          exact absurd (prefix_append _ _) (not_prefix_of_fileName absent isOther)

/-- A text has one first name. -/
theorem IsFirstName.unique {other : List Char} (first : IsFirstName text name)
    (second : IsFirstName text other) : name = other := by
  rcases first.first with ⟨front, rest, whole, least⟩
  rcases second.first with ⟨front', rest', whole', least'⟩
  have forth := least front' other rest' whole' second.isName
  have back := least' front name rest whole first.isName
  rw [whole, append_assoc, append_assoc front'] at whole'
  have fronts : front.length = front'.length := by omega
  have names : name.length = other.length := by omega
  exact (append_inj (append_inj whole' fronts).2 names).1

end Answers
end CodeQuality
