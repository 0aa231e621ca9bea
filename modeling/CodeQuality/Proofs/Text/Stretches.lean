import CodeQuality.Proofs.Text.Scanning
import Mathlib.Data.List.TakeWhile

namespace CodeQuality

open List

namespace Text

/-!
Lines as stretches of a text.

What a line is depends on which characters end one.  For any such class, a line is a
stretch of the text that begins where the text begins or behind a break, and reaches up to
the next break.  Its number is one more than the number of breaks before it.
-/

/-- A stretch of a text, with what stands before it. -/
structure Stretch where
  front : List Char
  line : List Char

namespace Stretch

/-- A stretch is a line of a text. -/
structure IsLineOf (isBreak : Char → Bool) (source : List Char) (stretch : Stretch) : Prop where
  /-- It begins the text or follows a break. -/
  opened : ∀ c ∈ stretch.front.getLast?, isBreak c = true
  /-- It reaches up to the next break, or to the end. -/
  reaches : ∃ rest, source = stretch.front ++ rest ∧
    stretch.line = rest.takeWhile fun c => !isBreak c

/-- The number of a line. -/
def number (isBreak : Char → Bool) (stretch : Stretch) : Nat := stretch.front.countP isBreak + 1

/-- A place of a text, given by what stands before it, is inside of a stretch or at one of its
ends. -/
structure Spans (stretch : Stretch) (place : List Char) : Prop where
  begins : stretch.front <+: place
  ends : place <+: stretch.front ++ stretch.line

end Stretch

section

variable {isBreak : Char → Bool} {source : List Char} {stretch : Stretch}

/-! ## The line of a place -/

theorem Stretch.IsLineOf.unbroken (isLine : stretch.IsLineOf isBreak source) :
    ∀ c ∈ stretch.line, isBreak c = false := by
  rcases isLine.reaches with ⟨rest, _, line⟩
  intro c member
  rw [line] at member
  simpa using mem_takeWhile_imp member

variable {text front : List Char}

theorem countP_eq_zero_of_unbroken (unbroken : ∀ c ∈ text, isBreak c = false) :
    text.countP isBreak = 0 := by
  rw [countP_eq_zero]
  intro c member
  rw [unbroken c member]
  exact Bool.false_ne_true

/-- The number of a line is told by any of its places. -/
theorem Stretch.IsLineOf.number_eq (isLine : stretch.IsLineOf isBreak source) {place : List Char}
    (spans : stretch.Spans place) : stretch.number isBreak = place.countP isBreak + 1 := by
  rcases spans.begins with ⟨more, rfl⟩
  have inside : more <+: stretch.line := (prefix_append_right_inj _).mp spans.ends
  have unbroken := countP_eq_zero_of_unbroken fun c member =>
    isLine.unbroken c (inside.subset member)
  rw [Stretch.number, countP_append, unbroken, Nat.add_zero]

theorem opened_concat (front : List Char) {c : Char} (ends : isBreak c = true) :
    ∀ last ∈ (front ++ [c]).getLast?, isBreak last = true := by
  intro last same
  rw [getLast?_concat, Option.mem_some_iff] at same
  exact same ▸ ends

theorem unbroken_concat {c : Char} (unbroken : ∀ a ∈ text, isBreak a = false)
    (inside : isBreak c = false) : ∀ a ∈ text ++ [c], isBreak a = false := by
  intro a member
  rcases mem_append.mp member with before | last
  · exact unbroken a before
  · rw [mem_singleton.mp last]
    exact inside

/-- Behind a break, a line begins. -/
theorem exists_line_of_opened (rest : List Char) (opened : ∀ c ∈ front.getLast?, isBreak c = true)
    (unbroken : ∀ c ∈ text, isBreak c = false) :
    ∃ own : Stretch, own.IsLineOf isBreak (front ++ text ++ rest) ∧ own.Spans front ∧
      own.Spans (front ++ text) := by
  refine ⟨⟨front, (text ++ rest).takeWhile fun c => !isBreak c⟩,
    ⟨opened, text ++ rest, append_assoc _ _ _, rfl⟩,
    ⟨prefix_refl _, prefix_append _ _⟩, ⟨prefix_append _ _, ?_⟩⟩
  exact (prefix_append_right_inj _).mpr
    (prefix_takeWhile_of_forall (prefix_append _ _) (by simpa using unbroken))

/-- What has no break in it is inside of a line. -/
theorem exists_line_of_unbroken (front rest : List Char)
    (unbroken : ∀ c ∈ text, isBreak c = false) :
    ∃ own : Stretch, own.IsLineOf isBreak (front ++ text ++ rest) ∧ own.Spans front ∧
      own.Spans (front ++ text) := by
  induction front using reverseRecOn generalizing text with
  | nil =>
      exact exists_line_of_opened rest (fun c absent => absurd absent (Option.not_mem_none c))
        unbroken
  | append_singleton front c ih =>
      cases ends : isBreak c with
      | true =>
          exact exists_line_of_opened rest (opened_concat front ends) unbroken
      | false =>
          -- the line that the text is inside of begins further in front
          rcases ih (forall_mem_cons.mpr ⟨ends, unbroken⟩) with ⟨own, isLine, first, last⟩
          have whole : front ++ c :: text = front ++ [c] ++ text := by
            rw [append_assoc, singleton_append]
          rw [whole] at isLine last
          refine ⟨own, isLine, ⟨first.begins.trans (prefix_append _ _), ?_⟩, last⟩
          exact (prefix_append _ _).trans last.ends

/-! ## All lines -/

/-- The lines of a text behind a front, of which the first is open. -/
def stretchesFrom (isBreak : Char → Bool) (front line : List Char) : List Char → List Stretch
  | [] => [⟨front, line⟩]
  | c :: rest =>
      if isBreak c then ⟨front, line⟩ :: stretchesFrom isBreak (front ++ line ++ [c]) [] rest
      else stretchesFrom isBreak front (line ++ [c]) rest

/-- The lines of a text, the last of which may be empty. -/
def stretches (isBreak : Char → Bool) (text : List Char) : List Stretch :=
  stretchesFrom isBreak [] [] text

/-- The line behind a front is what stands there up to the next break. -/
theorem isLineOf_and_front_eq_iff {front line text : List Char}
    (opened : ∀ c ∈ front.getLast?, isBreak c = true)
    (unbroken : ∀ c ∈ line, isBreak c = false) (ends : ∀ c ∈ text.head?, isBreak c = true) :
    stretch.IsLineOf isBreak (front ++ line ++ text) ∧ stretch.front = front ↔
      stretch = ⟨front, line⟩ := by
  have cut : (line ++ text).takeWhile (fun c => !isBreak c) = line := by
    rw [takeWhile_append_of_pos (by simpa using unbroken)]
    cases text with
    | nil => rw [takeWhile_nil, append_nil]
    | cons c rest => rw [takeWhile_cons_of_neg (by simp [ends c rfl]), append_nil]
  constructor
  · rintro ⟨isLine, same⟩
    rcases isLine.reaches with ⟨rest, whole, reached⟩
    rw [same, append_assoc, append_cancel_left_eq] at whole
    rw [← whole, cut] at reached
    cases stretch
    cases same
    cases reached
    rfl
  · rintro rfl
    exact ⟨⟨opened, line ++ text, append_assoc _ _ _, cut.symm⟩, rfl⟩

/-- A line does not begin inside of another one. -/
theorem Stretch.IsLineOf.front_eq_or_longer {line : List Char}
    (unbroken : ∀ c ∈ line, isBreak c = false)
    (isLine : stretch.IsLineOf isBreak (front ++ line ++ text))
    (behind : front.length ≤ stretch.front.length) :
    stretch.front = front ∨ (front ++ line).length < stretch.front.length := by
  rcases isLine.reaches with ⟨rest, whole, _⟩
  have begins : stretch.front <+: front ++ line ++ text := ⟨rest, whole.symm⟩
  have starts : front <+: front ++ line ++ text := by
    rw [append_assoc]
    exact prefix_append _ _
  rcases prefix_of_prefix_length_le starts begins behind with ⟨more, same⟩
  rcases eq_nil_or_concat more with rfl | ⟨others, last, rfl⟩
  · exact Or.inl (same.symm.trans (append_nil front))
  · right
    by_contra short
    rw [concat_eq_append] at same
    have inside : stretch.front <+: front ++ line :=
      prefix_of_prefix_length_le begins (prefix_append _ _) (Nat.le_of_not_lt short)
    rw [← same, prefix_append_right_inj] at inside
    have final : last ∈ stretch.front.getLast? := by
      rw [← same, ← append_assoc, getLast?_concat]
      rfl
    have broken := isLine.opened last final
    rw [unbroken last (inside.subset (mem_append_right others (mem_singleton_self last)))]
      at broken
    cases broken

theorem mem_stretchesFrom {front line : List Char} (text : List Char)
    (opened : ∀ c ∈ front.getLast?, isBreak c = true) (unbroken : ∀ c ∈ line, isBreak c = false) :
    stretch ∈ stretchesFrom isBreak front line text ↔
      stretch.IsLineOf isBreak (front ++ line ++ text) ∧ front.length ≤ stretch.front.length := by
  induction text generalizing front line with
  | nil =>
      have first := @isLineOf_and_front_eq_iff isBreak stretch front line [] opened unbroken
        fun c absent => absurd absent (Option.not_mem_none c)
      rw [stretchesFrom, mem_singleton, ← first]
      constructor
      · rintro ⟨isLine, same⟩
        exact ⟨isLine, Nat.le_of_eq (congrArg length same.symm)⟩
      · rintro ⟨isLine, behind⟩
        refine ⟨isLine, (isLine.front_eq_or_longer unbroken behind).resolve_right ?_⟩
        rcases isLine.reaches with ⟨rest, whole, _⟩
        have reach := (prefix_append stretch.front rest).length_le
        rw [← whole, append_nil] at reach
        exact Nat.not_lt.mpr reach
  | cons c rest ih =>
      rw [stretchesFrom]
      split
      next ends =>
        have first := @isLineOf_and_front_eq_iff isBreak stretch front line (c :: rest) opened
          unbroken fun last same => Option.mem_some_iff.mp same ▸ ends
        have whole : front ++ line ++ [c] ++ [] ++ rest = front ++ line ++ c :: rest := by
          rw [append_nil, append_assoc _ [c] rest, singleton_append]
        rw [mem_cons, ← first, ih (opened_concat _ ends) (forall_mem_nil _), whole,
          length_append, length_singleton, Nat.succ_le_iff]
        constructor
        · rintro (⟨isLine, same⟩ | ⟨isLine, later⟩)
          · exact ⟨isLine, Nat.le_of_eq (congrArg length same.symm)⟩
          · have sooner := (prefix_append front line).length_le
            exact ⟨isLine, by omega⟩
        · rintro ⟨isLine, behind⟩
          rcases isLine.front_eq_or_longer unbroken behind with same | longer
          · exact Or.inl ⟨isLine, same⟩
          · exact Or.inr ⟨isLine, longer⟩
      next inside =>
        rw [ih opened (unbroken_concat unbroken (Bool.eq_false_iff.mpr inside))]
        simp only [append_assoc, singleton_append]

/-- The lines of a text are listed. -/
theorem mem_stretches : stretch ∈ stretches isBreak source ↔ stretch.IsLineOf isBreak source := by
  have listed := @mem_stretchesFrom isBreak stretch [] [] source
    (fun c absent => absurd absent (Option.not_mem_none c)) (forall_mem_nil _)
  rw [stretches, listed]
  exact and_iff_left (Nat.zero_le _)

theorem pairwise_stretchesFrom {line : List Char} (text : List Char)
    (opened : ∀ c ∈ front.getLast?, isBreak c = true) (unbroken : ∀ c ∈ line, isBreak c = false) :
    (stretchesFrom isBreak front line text).Pairwise fun first second =>
      first.front.length < second.front.length := by
  induction text generalizing front line with
  | nil => exact pairwise_singleton _ _
  | cons c rest ih =>
      rw [stretchesFrom]
      split
      next ends =>
        have behind := opened_concat (front ++ line) ends
        refine pairwise_cons.mpr ⟨?_, ih behind (forall_mem_nil _)⟩
        intro second member
        have later := ((mem_stretchesFrom rest behind (forall_mem_nil _)).mp member).2
        rw [length_append, length_singleton] at later
        have sooner := (prefix_append front line).length_le
        exact Nat.lt_of_le_of_lt sooner later
      next inside => exact ih opened (unbroken_concat unbroken (Bool.eq_false_iff.mpr inside))

/-- The lines of a text are listed in order. -/
theorem pairwise_stretches (isBreak : Char → Bool) (source : List Char) :
    (stretches isBreak source).Pairwise fun first second =>
      first.front.length < second.front.length :=
  pairwise_stretchesFrom source (fun c absent => absurd absent (Option.not_mem_none c))
    (forall_mem_nil _)

end

/-- The first line of a text, of which some characters are held back. -/
theorem head?_linesFrom (current text : List Char) (present : current.reverse ++ text ≠ []) :
    (linesFrom current text).head? =
      some (current.reverse ++ text.takeWhile fun c => !isLineBreak c) := by
  fun_induction linesFrom current text with
  | case1 current empty => simp_all
  | case2 current more => simp
  | case3 current rest =>
      rw [takeWhile_cons_of_neg (by decide), append_nil, head?_cons]
  | case4 current c rest _ ends =>
      rw [takeWhile_cons_of_neg (by simp [ends]), append_nil, head?_cons]
  | case5 current c rest _ inside ih =>
      rw [ih (by simp), takeWhile_cons_of_pos (by simp [inside]), reverse_cons,
        append_assoc, singleton_append]

theorem head?_lines {text : List Char} (present : text ≠ []) :
    (lines text).head? = some (text.takeWhile fun c => !isLineBreak c) :=
  head?_linesFrom [] text present

end Text
end CodeQuality
