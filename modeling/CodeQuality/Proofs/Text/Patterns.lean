import CodeQuality.Text.Matcher
import CodeQuality.Text.Normal
import Mathlib.Data.List.TakeWhile

namespace CodeQuality

open List

namespace Text

/-!
Patterns, and replacing what they match.

A pattern can match the front of a text in more than one way.  The ways are listed, the
preferred one first, and the first of the list is taken.  So a pattern that takes as much
as it can and one that takes as little as it can are told apart, also inside of a longer
pattern, where the first way that can be continued is taken.

The steps to a normal form are replacements of this kind.  They go through the text once
and try out nothing, which is to be justified for each of them.
-/

/-- A pattern at the front of a text. -/
inductive Pattern where
  | word (mark : List Char)
  | one (isMember : Char → Bool)
  | most (isMember : Char → Bool)
  | fewest (isMember : Char → Bool)
  | lineEnd
  | next (first second : Pattern)

/-- What is left of a text after some characters of a class, the fewest first. -/
def stops (isMember : Char → Bool) : List Char → List (List Char)
  | [] => [[]]
  | c :: rest => (c :: rest) :: if isMember c then stops isMember rest else []

/-- What is left of a text in each of the ways in which a pattern matches its front.  A line ends
in front of a line feed and at the end of the text. -/
def Pattern.rests : Pattern → List Char → List (List Char)
  | .word mark, text => (after? mark text).toList
  | .one _, [] => []
  | .one isMember, c :: rest => if isMember c then [rest] else []
  | .most isMember, text => (stops isMember text).reverse
  | .fewest isMember, text => stops isMember text
  | .lineEnd, text => if text.head?.all (· == '\n') then [text] else []
  | .next first second, text => (first.rests text).flatMap second.rests

/-- What is left of a text after the preferred match of a pattern. -/
def Pattern.left? (pattern : Pattern) (text : List Char) : Option (List Char) :=
  (pattern.rests text).head?

/-- Put something new in the place of every match, from left to right.  The next match is looked for
behind the last one, and a match of no character is none. -/
def Pattern.replace (pattern : Pattern) (new text : List Char) : List Char :=
  match text with
  | [] => []
  | c :: rest =>
      match pattern.left? (c :: rest) with
      | some left =>
          if left.length ≤ rest.length then new ++ pattern.replace new left
          else c :: pattern.replace new rest
      | none => c :: pattern.replace new rest
termination_by text.length

/-- Whether a character is part of a line, and not the end of one. -/
def isInLine (c : Char) : Bool := c != '\n'

/-- A mark and all that follows it on its line. -/
def restOfLine (mark : String) : Pattern :=
  .next (.word mark.toList) (.most isInLine)

/-- A mark and as little of what follows as gets to the end of a line. -/
def upToLineEnd (mark : String) : Pattern :=
  .next (.word mark.toList) (.next (.fewest isInLine) .lineEnd)

/-- A block comment up to the first mark that closes it. -/
def blockComment : Pattern :=
  .next (.word "/*".toList) (.next (.fewest fun _ => true) (.word "*/".toList))

/-- A run of blanks. -/
def blankRun : Pattern := .next (.one isBlank) (.most isBlank)

/-! ## Replacement -/

/-- Whatever does with the matches of a pattern what replacing does is replacing. -/
theorem Pattern.replace_eq {pattern : Pattern} {new : List Char} {pass : List Char → List Char}
    (nil : pass [] = []) (found : ∀ c rest left, pattern.left? (c :: rest) = some left →
      left.length ≤ rest.length ∧ pass (c :: rest) = new ++ pass left)
    (none : ∀ c rest, pattern.left? (c :: rest) = none → pass (c :: rest) = c :: pass rest)
    (text : List Char) : pattern.replace new text = pass text := by
  fun_induction Pattern.replace pattern new text with
  | case1 => exact nil.symm
  | case2 c rest left here shorter ih => rw [ih, (found c rest left here).2]
  | case3 c rest left here longer ih => exact absurd (found c rest left here).1 longer
  | case4 c rest absent ih => rw [ih, none c rest absent]

variable {word text rest left mark : List Char} {c : Char}

theorem after?_eq_some_iff : after? word text = some rest ↔ text = word ++ rest := by
  unfold after?
  constructor
  · intro found
    split at found
    next front =>
      rw [← Option.some.inj found]
      exact prefix_iff_eq_append.mp (List.isPrefixOf_iff_prefix.mp front) |>.symm
    next => cases found
  · rintro rfl
    rw [if_pos (List.isPrefixOf_iff_prefix.mpr (prefix_append word rest)), drop_left]

theorem after?_eq_none_iff : after? word text = none ↔ ¬ word <+: text := by
  rw [after?, ← isPrefixOf_iff_prefix, ite_eq_right_iff]
  simp only [reduceCtorEq, imp_false]

/-! ## What is left -/

theorem suffix_of_mem_stops {isMember : Char → Bool} (stop : left ∈ stops isMember text) :
    left <:+ text := by
  induction text with
  | nil => exact (mem_singleton.mp stop) ▸ suffix_refl _
  | cons c rest ih =>
      rw [stops] at stop
      rcases mem_cons.mp stop with rfl | later
      · exact suffix_refl _
      · by_cases member : isMember c = true
        · rw [if_pos member] at later
          exact (ih later).trans (suffix_cons c rest)
        · rw [if_neg member] at later
          cases later

theorem suffix_of_afterAnyCase? (found : afterAnyCase? word text = some left) : left <:+ text := by
  fun_induction afterAnyCase? word text with
  | case1 text => exact Option.some.inj found ▸ suffix_refl _
  | case2 letter word c rest same ih => exact (ih found).trans (suffix_cons c rest)
  | case3 => cases found
  | case4 => cases found

theorem suffix_of_afterBlanks? (found : afterBlanks? text = some left) : left <:+ text := by
  cases text with
  | nil => cases found
  | cons c rest =>
      rw [afterBlanks?, Option.ite_none_right_eq_some] at found
      rw [← Option.some.inj found.2]
      exact (dropWhile_suffix isBlank).trans (suffix_cons c rest)

/-- A match takes the front of a text and leaves its end. -/
theorem Pattern.suffix_of_mem_rests (pattern : Pattern) (rest : left ∈ pattern.rests text) :
    left <:+ text := by
  induction pattern generalizing text left with
  | word mark =>
      rw [Pattern.rests, Option.mem_toList, after?_eq_some_iff] at rest
      exact rest ▸ suffix_append mark left
  | one isMember =>
      cases text with
      | nil => cases rest
      | cons c more =>
          rw [Pattern.rests, mem_ite_nil_right, mem_singleton] at rest
          exact rest.2 ▸ suffix_cons c more
  | most isMember => exact suffix_of_mem_stops (mem_reverse.mp rest)
  | fewest isMember => exact suffix_of_mem_stops rest
  | lineEnd =>
      rw [Pattern.rests, mem_ite_nil_right, mem_singleton] at rest
      exact rest.2 ▸ suffix_refl text
  | next first second firstEnds secondEnds =>
      rw [Pattern.rests] at rest
      rcases mem_flatMap.mp rest with ⟨middle, front, back⟩
      exact (secondEnds back).trans (firstEnds front)

/-! ## The preferred match -/

theorem left?_next_word (mark : List Char) (second : Pattern) (text : List Char) :
    (Pattern.next (.word mark) second).left? text = (after? mark text).bind second.left? := by
  simp only [Pattern.left?, Pattern.rests]
  cases after? mark text with
  | none => rfl
  | some rest =>
      simp only [Option.toList_some, flatMap_singleton, Option.bind_some, Pattern.left?]

theorem left?_next_one (isMember : Char → Bool) (second : Pattern) (c : Char) (rest : List Char) :
    (Pattern.next (.one isMember) second).left? (c :: rest) =
      if isMember c then second.left? rest else none := by
  simp only [Pattern.left?, Pattern.rests]
  cases isMember c with
  | true => simp only [if_true, flatMap_singleton]
  | false => rfl

theorem left?_most (isMember : Char → Bool) (text : List Char) :
    (Pattern.most isMember).left? text = some (text.dropWhile isMember) := by
  simp only [Pattern.left?, Pattern.rests, head?_reverse]
  induction text with
  | nil => rfl
  | cons c rest ih =>
      by_cases member : isMember c = true
      · rw [stops, if_pos member, getLast?_cons, ih, dropWhile_cons_of_pos member]
        rfl
      · rw [stops, if_neg member, dropWhile_cons_of_neg member]
        rfl

/-- The first end of a line is where the characters of the line end. -/
theorem left?_fewest_lineEnd (text : List Char) :
    (Pattern.next (.fewest isInLine) .lineEnd).left? text = some (text.dropWhile isInLine) := by
  simp only [Pattern.left?, Pattern.rests]
  induction text with
  | nil => rfl
  | cons c rest ih =>
      by_cases newline : c = '\n'
      · subst newline
        rfl
      · have inLine : isInLine c = true := bne_iff_ne.mpr newline
        simpa [stops, newline, inLine] using ih

/-- The first place where a block comment can be closed is the one that is looked for. -/
theorem left?_fewest_word (text : List Char) :
    (Pattern.next (.fewest fun _ => true) (.word "*/".toList)).left? text = afterBlock? text := by
  simp only [Pattern.left?, Pattern.rests]
  induction text using afterBlock?.induct with
  | case1 rest => rfl
  | case2 c rest shape ih =>
      have notHere : after? "*/".toList (c :: rest) = none := by
        cases closed : after? "*/".toList (c :: rest) with
        | none => rfl
        | some more =>
            rcases cons.inj (after?_eq_some_iff.mp closed) with ⟨star, slash⟩
            exact absurd slash (shape more star)
      rw [stops, if_pos rfl, flatMap_cons, notHere, afterBlock?.eq_2 c rest shape, ← ih]
      rfl
  | case3 => rfl

/-! ## Comments that the line ends -/

theorem isInLine_iff : isInLine c = true ↔ c ≠ '\n' := bne_iff_ne

/-- An open comment goes on to the end of the line. -/
theorem dropLineCommentsFrom_true (mark text : List Char) :
    dropLineCommentsFrom mark true text =
      dropLineCommentsFrom mark false (text.dropWhile isInLine) := by
  induction text with
  | nil => rfl
  | cons c rest ih =>
      by_cases newline : c = '\n'
      · subst newline
        rfl
      · rw [dropLineCommentsFrom, if_neg newline, Bool.true_or, if_pos rfl, ih,
          dropWhile_cons_of_pos (isInLine_iff.mpr newline)]

/-- A character stays unless a mark begins with it. -/
theorem dropLineCommentsFrom_cons (stays : c = '\n' ∨ ¬ mark <+: c :: rest) :
    dropLineCommentsFrom mark false (c :: rest) = c :: dropLineCommentsFrom mark false rest := by
  rw [dropLineCommentsFrom]
  by_cases newline : c = '\n'
  · rw [if_pos newline, newline]
  · have closed := stays.resolve_left newline
    rw [← isPrefixOf_iff_prefix] at closed
    rw [if_neg newline, Bool.false_or, if_neg closed]

theorem dropLineCommentsFrom_of_opens (inLine : c ≠ '\n') (opens : mark <+: c :: rest) :
    dropLineCommentsFrom mark false (c :: rest) = dropLineCommentsFrom mark true rest := by
  rw [← isPrefixOf_iff_prefix] at opens
  rw [dropLineCommentsFrom, if_neg inLine, Bool.false_or, if_pos opens]

/-- A mark opens a comment that goes on to the end of the line. -/
theorem dropLineCommentsFrom_append (present : mark ≠ []) (oneLine : '\n' ∉ mark)
    (rest : List Char) :
    dropLineCommentsFrom mark false (mark ++ rest) =
      dropLineCommentsFrom mark false (rest.dropWhile isInLine) := by
  have inLine : ∀ c ∈ mark, isInLine c = true := by
    intro c member
    exact isInLine_iff.mpr fun newline => oneLine (newline ▸ member)
  cases mark with
  | nil => exact absurd rfl present
  | cons c more =>
      have opens : c :: more <+: c :: (more ++ rest) := prefix_append (c :: more) rest
      rw [cons_append,
        dropLineCommentsFrom_of_opens (isInLine_iff.mp (inLine c mem_cons_self)) opens,
        dropLineCommentsFrom_true, dropWhile_append_of_pos]
      intro d member
      exact inLine d (mem_cons_of_mem c member)

/-- A pattern that matches a mark and the rest of its line removes the comments that the mark
opens. -/
theorem replace_eq_dropLineComments {mark : String} {pattern : Pattern}
    (present : mark.toList ≠ []) (oneLine : '\n' ∉ mark.toList)
    (matched : ∀ text, pattern.left? text =
      (after? mark.toList text).map (dropWhile isInLine)) (text : List Char) :
    pattern.replace [] text = dropLineComments mark text := by
  refine Pattern.replace_eq rfl ?_ ?_ text
  · intro c rest left found
    rw [matched, Option.map_eq_some_iff] at found
    rcases found with ⟨more, opened, rfl⟩
    have whole := after?_eq_some_iff.mp opened
    refine ⟨?_, ?_⟩
    · have lengths := congrArg length whole
      have shorter : (more.dropWhile isInLine).length ≤ more.length :=
        (dropWhile_suffix isInLine).length_le
      have counted := length_pos_iff.mpr present
      rw [length_cons, length_append] at lengths
      omega
    · rw [dropLineComments, whole, dropLineCommentsFrom_append present oneLine]
      rfl
  · intro c rest absent
    rw [matched, Option.map_eq_none_iff, after?_eq_none_iff] at absent
    exact dropLineCommentsFrom_cons (Or.inr absent)

theorem replace_restOfLine {mark : String} (present : mark.toList ≠ [])
    (oneLine : '\n' ∉ mark.toList) (text : List Char) :
    (restOfLine mark).replace [] text = dropLineComments mark text := by
  apply replace_eq_dropLineComments present oneLine
  intro text
  rw [restOfLine, left?_next_word]
  cases after? mark.toList text with
  | none => rfl
  | some rest => exact left?_most isInLine rest

theorem replace_upToLineEnd {mark : String} (present : mark.toList ≠ [])
    (oneLine : '\n' ∉ mark.toList) (text : List Char) :
    (upToLineEnd mark).replace [] text = dropLineComments mark text := by
  apply replace_eq_dropLineComments present oneLine
  intro text
  rw [upToLineEnd, left?_next_word]
  cases after? mark.toList text with
  | none => rfl
  | some rest => exact left?_fewest_lineEnd rest

/-! ## Block comments -/

theorem dropBlockComments_of_closed {after : List Char} (closed : afterBlock? rest = some after) :
    dropBlockComments ('/' :: '*' :: rest) = dropBlockComments after := by
  rw [dropBlockComments]
  split
  next found => rw [closed] at found; rw [Option.some.inj found]
  next found => rw [closed] at found; cases found

/-- A character that opens no block comment stays, and so does one that opens a comment which is
not closed. -/
theorem dropBlockComments_cons
    (unclosed : ∀ more, c = '/' → rest = '*' :: more → afterBlock? more = none) :
    dropBlockComments (c :: rest) = c :: dropBlockComments rest := by
  by_cases opened : ∃ more, c = '/' ∧ rest = '*' :: more
  · rcases opened with ⟨more, rfl, rfl⟩
    rw [dropBlockComments]
    split
    next found => rw [unclosed more rfl rfl] at found; cases found
    next => rfl
  · exact dropBlockComments.eq_2 c rest fun more slash star => opened ⟨more, slash, star⟩

theorem replace_blockComment (text : List Char) :
    blockComment.replace [] text = dropBlockComments text := by
  refine Pattern.replace_eq (by rw [dropBlockComments]) ?_ ?_ text
  · intro c rest left found
    rw [blockComment, left?_next_word, Option.bind_eq_some_iff] at found
    rcases found with ⟨more, opened, closed⟩
    rw [left?_fewest_word] at closed
    rcases cons.inj (after?_eq_some_iff.mp opened) with ⟨rfl, rfl⟩
    have shorter := length_afterBlock? closed
    exact ⟨Nat.le_succ_of_le shorter.le, dropBlockComments_of_closed closed⟩
  · intro c rest absent
    apply dropBlockComments_cons
    rintro more rfl rfl
    have opened : after? "/*".toList ('/' :: '*' :: more) = some more := rfl
    rw [blockComment, left?_next_word, opened] at absent
    exact (left?_fewest_word more).symm.trans absent

/-! ## Runs of blanks -/

/-- Behind a blank the other blanks of the run go. -/
theorem collapseFrom_true (text : List Char) :
    collapseFrom true text = collapseFrom false (text.dropWhile isBlank) := by
  induction text with
  | nil => rfl
  | cons c rest ih =>
      by_cases blank : isBlank c = true
      · rw [collapseFrom, if_pos blank, if_pos rfl, ih, dropWhile_cons_of_pos blank]
      · rw [collapseFrom, if_neg blank, dropWhile_cons_of_neg blank, collapseFrom,
          if_neg blank]

theorem replace_blankRun (text : List Char) :
    blankRun.replace [' '] text = collapseBlanks text := by
  refine Pattern.replace_eq rfl ?_ ?_ text
  · intro c rest left found
    rw [blankRun, left?_next_one] at found
    by_cases blank : isBlank c = true
    · rw [if_pos blank, left?_most] at found
      rw [← Option.some.inj found]
      refine ⟨(dropWhile_suffix isBlank).length_le, ?_⟩
      rw [collapseBlanks, collapseFrom, if_pos blank, if_neg Bool.false_ne_true, collapseFrom_true]
      rfl
    · rw [if_neg blank] at found
      cases found
  · intro c rest absent
    rw [blankRun, left?_next_one] at absent
    by_cases blank : isBlank c = true
    · rw [if_pos blank, left?_most] at absent
      cases absent
    · rw [collapseBlanks, collapseFrom, if_neg blank]
      rfl

end Text
end CodeQuality
