import CodeQuality.Proofs.Symbols.References
import CodeQuality.Proofs.Text.Classes

namespace CodeQuality
namespace Symbols

open Text List

/-!
Names with dots.

A name is one or more words with dots between them.  The pattern for references reads a
name, then blanks, then an opening bracket, and it takes as much for each of them as it
can.  Since a word character is neither a dot nor a blank nor a bracket, there is no other
way to read the three, so the pattern reads exactly the texts that are made of them.
-/

/-! ## Names with dots -/

/-- Words, each of at least one word character, and the name that they are with dots between
them. -/
inductive Spells : List (List Char) → List Char → Prop
  | last {word : List Char} (present : word ≠ []) (letters : ∀ c ∈ word, isWord c = true) :
      Spells [word] word
  | dot {word name : List Char} {words : List (List Char)} (present : word ≠ [])
      (letters : ∀ c ∈ word, isWord c = true) (rest : Spells words name) :
      Spells (word :: words) (word ++ '.' :: name)

/-- A name with dots. -/
def IsName (name : List Char) : Prop := ∃ words, Spells words name

/-- The longest name that a text ends in. -/
structure IsLongestName (text name : List Char) : Prop where
  isName : IsName name
  ends : name <:+ text
  longest : ∀ other, IsName other → other <:+ text → other.length ≤ name.length

theorem isWord_point : isWord '.' = false := by decide

theorem isWord_bracket : isWord '(' = false := by decide

theorem isBlank_point : isBlank '.' = false := by decide

theorem isBlank_bracket : isBlank '(' = false := by decide

namespace Spells

variable {words : List (List Char)} {name : List Char}

theorem ne_nil (spells : Spells words name) : name ≠ [] := by
  cases spells with
  | last present => exact present
  | dot present => exact fun empty => present (append_eq_nil_iff.mp empty).1

/-- A name consists of word characters and dots. -/
theorem isWord_or_point (spells : Spells words name) : ∀ c ∈ name, isWord c = true ∨ c = '.' := by
  induction spells with
  | last _ letters => exact fun c member => Or.inl (letters c member)
  | dot _ letters _ ih =>
      intro c member
      rcases mem_append.mp member with first | later
      · exact Or.inl (letters c first)
      · rcases mem_cons.mp later with point | below
        · exact Or.inr point
        · exact ih c below

theorem bracket_notMem (spells : Spells words name) : '(' ∉ name := by
  intro member
  rcases spells.isWord_or_point '(' member with isWord | point
  · exact absurd (isWord_bracket.symm.trans isWord) Bool.false_ne_true
  · cases point

/-- A name ends in a word character. -/
theorem getLast?_eq (spells : Spells words name) :
    ∃ c, name.getLast? = some c ∧ isWord c = true := by
  induction spells with
  | @last word present letters =>
      exact ⟨word.getLast present, getLast?_eq_some_getLast present,
        letters _ (getLast_mem present)⟩
  | @dot word name words _ _ rest ih =>
      rcases ih with ⟨c, last, isWord⟩
      refine ⟨c, ?_, isWord⟩
      rw [getLast?_append, getLast?_cons, last]
      rfl

/-- A name starts with a word character. -/
theorem exists_cons (spells : Spells words name) :
    ∃ c more, name = c :: more ∧ isWord c = true := by
  cases spells with
  | last present letters =>
      rcases exists_cons_of_ne_nil present with ⟨c, more, rfl⟩
      exact ⟨c, more, rfl, letters c mem_cons_self⟩
  | dot present letters =>
      rcases exists_cons_of_ne_nil present with ⟨c, more, rfl⟩
      exact ⟨c, _, cons_append, letters c mem_cons_self⟩

end Spells

variable {text : List Char}

theorem exists_isLongestName_of_suffix {own : List Char} (isName : IsName own)
    (ends : own <:+ text) : ∃ name, IsLongestName text name := by
  induction text with
  | nil =>
      rcases isName with ⟨words, spells⟩
      exact absurd (suffix_nil.mp ends) spells.ne_nil
  | cons c rest ih =>
      by_cases whole : IsName (c :: rest)
      · exact ⟨c :: rest, whole, suffix_refl _, fun other _ within => within.length_le⟩
      · -- the whole text is no name, so names that it ends in are names that the rest ends in
        have below : ∀ other, IsName other → other <:+ c :: rest → other <:+ rest := by
          intro other named within
          rcases suffix_cons_iff.mp within with rfl | later
          · exact absurd named whole
          · exact later
        rcases ih (below own isName ends) with ⟨name, named, within, longest⟩
        exact ⟨name, named, within.trans (suffix_cons c rest),
          fun other otherNamed otherWithin =>
            longest other otherNamed (below other otherNamed otherWithin)⟩

/-- A text that ends in a word character ends in a name, and one of its names is the longest. -/
theorem exists_isLongestName {c : Char} (last : text.getLast? = some c) (letter : isWord c = true) :
    ∃ name, IsLongestName text name := by
  have single : IsName [c] :=
    ⟨[[c]], .last (cons_ne_nil c []) (forall_mem_singleton.mpr letter)⟩
  rcases getLast?_eq_some_iff.mp last with ⟨front, rfl⟩
  exact exists_isLongestName_of_suffix single (suffix_append front [c])

/-! ## The pattern -/

/-- A run of word characters ends where none follows. -/
theorem takeWhile_isWord_append {word left : List Char} (letters : ∀ c ∈ word, isWord c = true)
    (stops : ∀ c ∈ left.head?, isWord c = false) :
    (word ++ left).takeWhile isWord = word ∧ (word ++ left).dropWhile isWord = left := by
  have none : left.takeWhile isWord = [] ∧ left.dropWhile isWord = left := by
    cases left with
    | nil => exact ⟨rfl, rfl⟩
    | cons c rest =>
        have noWord := stops c rfl
        exact ⟨takeWhile_cons_of_neg (by simp [noWord]),
          dropWhile_cons_of_neg (by simp [noWord])⟩
  rw [takeWhile_append_of_pos letters, dropWhile_append_of_pos letters, none.1, none.2,
    append_nil]
  exact ⟨rfl, rfl⟩

/-- The words of a name are read up to what is neither a word character nor a dot. -/
theorem dottedWords_append {words : List (List Char)} {name : List Char}
    (spells : Spells words name) {left : List Char}
    (stops : ∀ c ∈ left.head?, isWord c = false ∧ c ≠ '.') {bound : Nat}
    (enough : name.length ≤ bound) : dottedWords bound (name ++ left) = (words, left) := by
  induction spells generalizing bound with
  | @last word present letters =>
      have run := takeWhile_isWord_append letters fun c first => (stops c first).1
      cases bound with
      | zero => exact absurd (length_eq_zero_iff.mp (Nat.le_zero.mp enough)) present
      | succ bound =>
          rw [dottedWords, run.1, run.2]
          split
          · next rest => exact absurd rfl (stops '.' rfl).2
          · rfl
  | @dot word name words present letters rest ih =>
      rcases rest.exists_cons with ⟨next, more, rfl, letter⟩
      have run := @takeWhile_isWord_append word ('.' :: (next :: more ++ left)) letters
        fun c first => by cases first; exact isWord_point
      rw [length_append, length_cons] at enough
      cases bound with
      | zero => omega
      | succ bound =>
          have onward := @ih bound (by omega)
          rw [append_assoc, cons_append, dottedWords, run.1, run.2]
          simp only [cons_append, letter, if_true]
          rw [← cons_append, onward]

/-- The word in front of a text that starts with a word character. -/
theorem takeWhile_isWord_of_starts (starts : startsWithWord text = true) :
    text.takeWhile isWord ≠ [] ∧ ∀ c ∈ text.takeWhile isWord, isWord c = true := by
  refine ⟨?_, fun c => mem_takeWhile_imp⟩
  cases text with
  | nil => cases starts
  | cons c rest =>
      rw [takeWhile_cons_of_pos (show isWord c = true from starts)]
      exact cons_ne_nil _ _

theorem spells_dottedWords {bound : Nat} (starts : startsWithWord text = true)
    (enough : text.length ≤ bound) :
    ∃ name, Spells (dottedWords bound text).1 name ∧ text = name ++ (dottedWords bound text).2 := by
  fun_induction dottedWords bound text with
  | case1 text =>
      rw [length_eq_zero_iff.mp (Nat.le_zero.mp enough)] at starts
      cases starts
  | case2 bound text first rest next more cut letter words left deeper ih =>
      have word := takeWhile_isWord_of_starts starts
      have parts : first ++ '.' :: next :: more = text := by
        rw [← cut]
        exact takeWhile_append_dropWhile
      have shorter : (next :: more).length ≤ bound := by
        rw [← parts, length_append, length_cons] at enough
        omega
      rcases ih letter shorter with ⟨name, spells, whole⟩
      rw [deeper] at spells whole
      refine ⟨_, .dot word.1 word.2 spells, ?_⟩
      rw [append_assoc, cons_append, ← whole]
      exact parts.symm
  | case3 bound text =>
      have word := takeWhile_isWord_of_starts starts
      exact ⟨_, .last word.1 word.2, takeWhile_append_dropWhile.symm⟩
  | case4 bound text =>
      have word := takeWhile_isWord_of_starts starts
      exact ⟨_, .last word.1 word.2, takeWhile_append_dropWhile.symm⟩

/-- Behind blanks, an opening bracket is what is left when they are removed. -/
theorem trimLeft_blanks_append {blanks : List Char} (clear : ∀ c ∈ blanks, isBlank c = true)
    (left : List Char) : trimLeft (blanks ++ '(' :: left) = '(' :: left := by
  rw [trimLeft, dropWhile_append_of_pos clear]
  exact dropWhile_cons_of_neg (by simp [isBlank_bracket])

/-- A name ends where blanks and an opening bracket follow. -/
theorem stops_at_bracket {blanks : List Char} (clear : ∀ c ∈ blanks, isBlank c = true)
    (left : List Char) : ∀ c ∈ (blanks ++ '(' :: left).head?, isWord c = false ∧ c ≠ '.' := by
  intro c first
  cases blanks with
  | nil =>
      cases first
      exact ⟨isWord_bracket, by decide⟩
  | cons blank more =>
      cases first
      have isBlank := clear c mem_cons_self
      refine ⟨isWord_of_isBlank isBlank, fun point => ?_⟩
      rw [point, isBlank_point] at isBlank
      cases isBlank

/-- What the pattern reads: a name, blanks and an opening bracket. -/
theorem callee_eq_some_iff {left : List Char} {words : List (List Char)} :
    callee text = some (words, left) ↔
      ∃ name blanks, Spells words name ∧ (∀ c ∈ blanks, isBlank c = true) ∧
        text = name ++ (blanks ++ '(' :: left) := by
  rw [callee]
  constructor
  · intro read
    split at read
    · next starts =>
        rcases spells_dottedWords starts (Nat.le_refl _) with ⟨name, spells, whole⟩
        generalize dottedWords text.length text = result at read spells whole
        rcases result with ⟨own, rest⟩
        simp only at read spells whole
        have blanks := takeWhile_append_dropWhile (p := isBlank) (l := rest)
        split at read
        · next trimmed =>
            cases read
            rw [show rest.dropWhile isBlank = '(' :: left from trimmed] at blanks
            exact ⟨name, _, spells, fun c => mem_takeWhile_imp, by rw [whole, blanks]⟩
        · cases read
    · cases read
  · rintro ⟨name, blanks, spells, clear, rfl⟩
    have starts : startsWithWord (name ++ (blanks ++ '(' :: left)) = true := by
      rcases spells.exists_cons with ⟨c, more, rfl, letter⟩
      exact letter
    have enough : name.length ≤ (name ++ (blanks ++ '(' :: left)).length := by
      rw [length_append]
      exact Nat.le_add_right _ _
    rw [if_pos starts]
    simp only [dottedWords_append spells (stops_at_bracket clear left) enough,
      trimLeft_blanks_append clear]

end Symbols
end CodeQuality
