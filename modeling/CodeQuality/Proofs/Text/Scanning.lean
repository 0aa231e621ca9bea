import CodeQuality.Text.Matcher
import CodeQuality.Text.Quoted
import CodeQuality.Text.Search
import Mathlib.Data.List.DropRight
import Mathlib.Data.List.Infix

namespace CodeQuality

open List

namespace Text

/-!
Words and patterns in a text with a known beginning.

What stands in a text that ends in digits is looked for in two steps.  A word cannot reach
into the digits further than its own last characters do, so it is enough to look for the
rest of the word in what stands before them.  Beside a separator that it does not have, a
word stands on one side.  A pattern is found where it first matches, and it does not match
earlier if it cannot begin with any of the characters there.
-/

/-! ## Words -/

theorem occursIn_iff {word text : List Char} : occursIn word text = true ↔ word <:+: text := by
  induction text with
  | nil => rw [occursIn, List.isEmpty_iff, infix_nil]
  | cons c rest ih =>
      rw [occursIn, Bool.or_eq_true, isPrefixOf_iff_prefix, ih, infix_cons_iff]

/-- What ends in an item that the end of a list does not have stands in the front of the list. -/
theorem infix_front {α : Type} {word front rest : List α} {last : α} (absent : last ∉ rest)
    (inside : word ++ [last] <:+: front ++ rest) : word ++ [last] <:+: front := by
  rcases inside with ⟨before, after, whole⟩
  have cut : (before ++ word) ++ last :: after = front ++ rest := by
    rw [← whole]
    simp only [append_assoc, singleton_append]
  rcases append_eq_append_iff.mp cut with ⟨between, same, tail⟩ | ⟨between, same, tail⟩
  · cases between with
    | nil =>
        rw [nil_append] at tail
        exact absurd (tail ▸ mem_cons_self) absent
    | cons head between =>
        cases tail
        refine ⟨before, between, ?_⟩
        rw [same]
        simp only [append_assoc, singleton_append]
  · exact absurd (tail ▸ mem_append_right between mem_cons_self) absent

/-- A word does not stand in a text with a tail if the word without its own tail does not stand in
the text before. -/
theorem occursIn_append_eq_false {isTail : Char → Bool} {word front rest : List Char}
    (tail : ∀ c ∈ rest, isTail c = true) (stemmed : word.rdropWhile isTail ≠ [])
    (absent : occursIn (word.rdropWhile isTail) front = false) :
    occursIn word (front ++ rest) = false := by
  rw [← Bool.not_eq_true, occursIn_iff] at absent ⊢
  intro inside
  apply absent
  have last : (word.rdropWhile isTail).getLast stemmed ∉ rest := by
    intro member
    exact rdropWhile_last_not isTail word stemmed (tail _ member)
  rw [← dropLast_append_getLast stemmed]
  apply infix_front last
  rw [dropLast_append_getLast stemmed]
  exact ((List.rdropWhile_prefix isTail word).isInfix).trans inside

/-- What has only characters of a class stands in the run of them. -/
theorem prefix_takeWhile_of_forall {isMember : Char → Bool} {front text : List Char}
    (opens : front <+: text) (members : ∀ c ∈ front, isMember c = true) :
    front <+: text.takeWhile isMember := by
  rcases opens with ⟨rest, rfl⟩
  rw [takeWhile_append_of_pos members]
  exact prefix_append _ _

section

variable {word front rest : List Char} {c : Char}

theorem prefix_of_notMem (absent : c ∉ word) (opens : word <+: front ++ c :: rest) :
    word <+: front := by
  rcases prefix_or_prefix_of_prefix opens (prefix_append front (c :: rest)) with
    short | ⟨more, rfl⟩
  · exact short
  · cases more with
    | nil => rw [append_nil]
    | cons other more =>
        have same := (cons_prefix_cons.mp ((prefix_append_right_inj front).mp opens)).1
        exact absurd (mem_append_right front (same ▸ mem_cons_self)) absent

/-- A word without a separator stands on one side of it. -/
theorem infix_of_notMem (absent : c ∉ word) (inside : word <:+: front ++ c :: rest) :
    word <:+: front ∨ word <:+: rest := by
  rcases inside with ⟨before, after, whole⟩
  rw [append_assoc] at whole
  rcases append_eq_append_iff.mp whole with ⟨between, rfl, same⟩ | ⟨between, rfl, same⟩
  · left
    have opens := prefix_of_notMem absent (same ▸ prefix_append word after)
    exact opens.isInfix.trans (suffix_append _ _).isInfix
  · cases between with
    | nil =>
        left
        have opens : word <+: [] ++ c :: rest := same ▸ prefix_append word after
        rw [prefix_nil.mp (prefix_of_notMem absent opens)]
        exact nil_infix
    | cons other between =>
        right
        rw [cons_append, cons.injEq] at same
        exact ⟨between, after, by rw [same.2, append_assoc]⟩

end

/-! ## Patterns -/

variable {α : Type} {text : List Char} {scan : Scanner α}

/-- A pattern that matches nowhere has no match. -/
theorem matchesFrom_eq_nil (none : ∀ suffix, suffix ≠ [] → suffix <:+ text → scan suffix = none)
    (offset line : Nat) (before : Option Char) :
    matchesFrom (fun _ => scan) offset line 0 before text = [] := by
  induction text generalizing offset line before with
  | nil => rfl
  | cons c rest ih =>
      simp only [matchesFrom, none (c :: rest) (cons_ne_nil _ _) (suffix_refl _)]
      apply ih
      intro suffix present ends
      exact none suffix present (ends.trans (suffix_cons c rest))

/-- The first match of a pattern is where it matches if it does not match before. -/
theorem head?_matchesFrom {front left : List Char} {value : α}
    (none : ∀ suffix, suffix ≠ [] → suffix <:+ front → scan (suffix ++ text) = none)
    (present : text ≠ []) (found : scan text = some (value, left)) (offset line : Nat)
    (before : Option Char) :
    ∃ first, (matchesFrom (fun _ => scan) offset line 0 before (front ++ text)).head? = some first ∧
      first.text = text ∧ first.length = text.length - left.length ∧ first.value = value := by
  induction front generalizing offset line before with
  | nil =>
      cases text with
      | nil => exact absurd rfl present
      | cons c rest =>
          simp only [nil_append, matchesFrom, found]
          exact ⟨_, rfl, rfl, rfl, rfl⟩
  | cons c rest ih =>
      have skipped := none (c :: rest) (cons_ne_nil _ _) (suffix_refl _)
      rw [cons_append] at skipped ⊢
      simp only [matchesFrom, skipped]
      apply ih
      intro suffix present ends
      exact none suffix present (ends.trans (suffix_cons c rest))

/-- A pattern matches nowhere, or there is a place where it matches first. -/
theorem exists_first_match (scan : Scanner α) (text : List Char) :
    (∀ suffix, suffix ≠ [] → suffix <:+ text → scan suffix = none) ∨
      ∃ front rest value left, text = front ++ rest ∧ rest ≠ [] ∧ scan rest = some (value, left) ∧
        ∀ suffix, suffix ≠ [] → suffix <:+ front → scan (suffix ++ rest) = none := by
  induction text with
  | nil => exact Or.inl fun suffix present ends => absurd (suffix_nil.mp ends) present
  | cons c rest ih =>
      cases read : scan (c :: rest) with
      | some result =>
          refine Or.inr ⟨[], c :: rest, result.1, result.2, rfl, cons_ne_nil _ _, read, ?_⟩
          exact fun suffix present ends => absurd (suffix_nil.mp ends) present
      | none =>
          rcases ih with nowhere | ⟨front, later, value, left, rfl, present, found, earlier⟩
          · refine Or.inl fun suffix present ends => ?_
            rcases suffix_cons_iff.mp ends with rfl | below
            · exact read
            · exact nowhere suffix present below
          · refine Or.inr ⟨c :: front, later, value, left, rfl, present, found, ?_⟩
            intro suffix nonempty ends
            rcases suffix_cons_iff.mp ends with rfl | below
            · exact read
            · exact earlier suffix nonempty below

/-- What is matched was read by the pattern. -/
theorem scan_of_mem_matchesFrom {found : Match α} {offset line skip : Nat} {before : Option Char}
    (member : found ∈ matchesFrom (fun _ => scan) offset line skip before text) :
    ∃ left, scan found.text = some (found.value, left) := by
  induction text generalizing offset line skip before with
  | nil => cases member
  | cons c rest ih =>
      cases skip with
      | succ remaining =>
          rw [matchesFrom] at member
          exact ih member
      | zero =>
          cases read : scan (c :: rest) with
          | none =>
              simp only [matchesFrom, read] at member
              exact ih member
          | some result =>
              simp only [matchesFrom, read] at member
              rcases mem_cons.mp member with rfl | later
              · exact ⟨result.2, read⟩
              · exact ih later

/-- A run of characters of a class ends where a character of another kind follows. -/
theorem run?_append {isMember : Char → Bool} {found left : List Char} (present : found ≠ [])
    (members : ∀ c ∈ found, isMember c = true)
    (ends : left.head?.all (fun c => !isMember c) = true) :
    run? isMember (found ++ left) = some (found, left) := by
  have stops : left.takeWhile isMember = [] ∧ left.dropWhile isMember = left := by
    cases left with
    | nil => exact ⟨rfl, rfl⟩
    | cons c rest =>
        have other : ¬ isMember c = true := by
          simpa using ends
        exact ⟨takeWhile_cons_of_neg other, dropWhile_cons_of_neg other⟩
  unfold run?
  rw [takeWhile_append_of_pos members, dropWhile_append_of_pos members, stops.1, stops.2,
    append_nil]
  cases found with
  | nil => exact absurd rfl present
  | cons c rest => rfl

/-! ## Lower case -/

/-- Within ASCII every character is lowered by itself. -/
theorem lowerAfter_ascii (ascii : ∀ c ∈ text, c.toNat < 128) (before : List Char) :
    lowerAfter before text = text.map toLowerChar := by
  induction text generalizing before with
  | nil => rfl
  | cons c rest ih =>
      have small := ascii c mem_cons_self
      rw [lowerAfter, if_neg (by omega), if_neg (by omega),
        ih fun other member => ascii other (mem_cons_of_mem c member)]
      rfl

theorem lower_ascii (ascii : ∀ c ∈ text, c.toNat < 128) : lower text = text.map toLowerChar :=
  lowerAfter_ascii ascii []

theorem ascii_of_all (all : (text.all fun c => decide (c.toNat < 128)) = true) :
    ∀ c ∈ text, c.toNat < 128 :=
  fun c member => of_decide_eq_true (all_eq_true.mp all c member)

theorem lowerAfter_append {front : List Char} (ascii : ∀ c ∈ front, c.toNat < 128)
    (before rest : List Char) :
    lowerAfter before (front ++ rest) =
      front.map toLowerChar ++ lowerAfter (front.reverse ++ before) rest := by
  induction front generalizing before with
  | nil => rfl
  | cons c front ih =>
      have small := ascii c mem_cons_self
      rw [cons_append, lowerAfter, if_neg (by omega), if_neg (by omega),
        ih fun other member => ascii other (mem_cons_of_mem c member), reverse_cons,
        append_assoc, singleton_append]
      rfl

theorem exists_lowerAfter_append {rest : List Char} (ascii : ∀ c ∈ rest, c.toNat < 128)
    (before front : List Char) :
    ∃ small, lowerAfter before (front ++ rest) = small ++ rest.map toLowerChar := by
  induction front generalizing before with
  | nil => exact ⟨[], lowerAfter_ascii ascii before⟩
  | cons c front ih =>
      rcases ih (c :: before) with ⟨small, onward⟩
      rw [cons_append, lowerAfter, onward, ← append_assoc]
      exact ⟨_, rfl⟩

/-- A text in small letters begins with the small letter of its first character, or with one of
the two small letters for a sigma. -/
theorem head?_lower (c : Char) (rest : List Char) :
    (lower (c :: rest)).head? = some (toLowerChar c) ∨
      (lower (c :: rest)).head? = some (Char.ofNat 0x3c2) ∨
      (lower (c :: rest)).head? = some (Char.ofNat 0x3c3) := by
  rw [lower, lowerAfter]
  by_cases dotted : c.toNat = 0x130
  · left
    have small : toLowerChar c = 'i' := by
      rw [toLowerChar, if_neg (by omega), if_pos dotted]
    rw [if_pos dotted, small]
    rfl
  · rw [if_neg dotted]
    by_cases sigma : c.toNat = 0x3a3
    · right
      rw [if_pos sigma]
      split
      · exact Or.inl rfl
      · exact Or.inr rfl
    · left
      rw [if_neg sigma]
      rfl

/-! ## Digits -/

/-- The hexadecimal digits in small letters. -/
def hexLetters : List Char := "0123456789abcdef".toList

theorem mem_hexLetters {c : Char} {width value : Nat} (member : c ∈ hexDigits width value) :
    c ∈ hexLetters := by
  have digits : ∀ value < 16, hexDigit value ∈ hexLetters := by decide
  induction width generalizing value with
  | zero => cases member
  | succ width ih =>
      rw [hexDigits] at member
      rcases mem_append.mp member with front | last
      · exact ih front
      · rw [mem_singleton.mp last]
        exact digits (value % 16) (Nat.mod_lt value (by decide))

end Text
end CodeQuality
