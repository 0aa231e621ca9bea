import CodeQuality.Proofs.Text.NormalForms

namespace CodeQuality

open List

namespace Text

/-!
Blanks around a text, and the two normal forms.

The form for any source trims the text at the beginning and removes one more kind of
comment; the form for scripts matches comments in another way.  Blanks around a text
make no difference in the end: every step leaves them around what it makes of the text,
though not always all of them, and the last step trims them away.  So without hash
signs the two forms are the same.
-/

/-- A text with blanks around it. -/
def Pads (padded text : List Char) : Prop :=
  ∃ front back, (∀ c ∈ front, isBlank c = true) ∧ (∀ c ∈ back, isBlank c = true) ∧
    padded = front ++ text ++ back

theorem pads_trim (text : List Char) : Pads text (trim text) := by
  refine ⟨text.takeWhile isBlank, (trimLeft text).rtakeWhile isBlank, ?_, ?_, ?_⟩
  · exact fun c member => mem_takeWhile_imp member
  · exact fun c member => mem_rtakeWhile_imp member
  · have right : trim text ++ (trimLeft text).rtakeWhile isBlank = trimLeft text :=
      rdropWhile_append_rtakeWhile
    rw [append_assoc, right]
    exact takeWhile_append_dropWhile.symm

/-- Trimming makes no difference between a text and the same with blanks around it. -/
theorem Pads.trim_eq {padded text : List Char} (pads : Pads padded text) :
    trim padded = trim text := by
  rcases pads with ⟨front, back, frontBlank, backBlank, rfl⟩
  have right : ∀ kept : List Char, trimRight (kept ++ back) = trimRight kept := by
    intro kept
    rw [trimRight, reverse_append, dropWhile_append_of_pos]
    · rfl
    · exact fun c member => backBlank c (mem_reverse.mp member)
  rw [trim, trim, trimLeft, append_assoc, dropWhile_append_of_pos frontBlank,
    dropWhile_append]
  by_cases empty : text.dropWhile isBlank = []
  · have nothing : back.dropWhile isBlank = [] := dropWhile_eq_nil_iff.mpr backBlank
    rw [if_pos (isEmpty_iff.mpr empty), nothing, trimLeft, empty]
  · rw [if_neg (mt List.isEmpty_iff.mp empty), right]
    rfl

section Steps

variable {back : List Char} (blank : ∀ c ∈ back, isBlank c = true)

include blank

/-- What begins with no blank begins the text before the blanks. -/
theorem exists_cons_of_append_blanks {text more : List Char} {c : Char}
    (other : ¬ isBlank c = true) (begins : text ++ back = c :: more) :
    ∃ rest, text = c :: rest := by
  cases text with
  | nil =>
      rw [nil_append] at begins
      exact absurd (blank c (begins ▸ mem_cons_self)) other
  | cons d rest =>
      rw [(cons.inj begins).1]
      exact ⟨rest, rfl⟩

theorem prefix_append_blanks_iff {word text : List Char} (clear : ∀ c ∈ word, ¬ isBlank c = true) :
    word <+: text ++ back ↔ word <+: text := by
  refine ⟨?_, fun front => front.trans (prefix_append text back)⟩
  intro front
  induction word generalizing text with
  | nil => exact nil_prefix
  | cons c word ih =>
      rcases front with ⟨after, whole⟩
      rcases exists_cons_of_append_blanks blank (clear c mem_cons_self) whole.symm
        with ⟨rest, rfl⟩
      refine cons_prefix_cons.mpr ⟨rfl, ih ?_ ⟨after, (cons.inj whole).2⟩⟩
      exact fun d member => clear d (mem_cons_of_mem c member)

theorem dropLineComments_append_blanks {mark : List Char}
    (clear : ∀ c ∈ mark, ¬ isBlank c = true) (inside : Bool) (text : List Char) :
    ∃ left, (∀ c ∈ left, isBlank c = true) ∧
      dropLineCommentsFrom mark inside (text ++ back) =
        dropLineCommentsFrom mark inside text ++ left := by
  induction text generalizing inside with
  | nil =>
      refine ⟨dropLineCommentsFrom mark inside back, ?_, rfl⟩
      exact fun c member => blank c (mem_of_mem_dropLineComments member)
  | cons c rest ih =>
      have opens : mark.isPrefixOf (c :: (rest ++ back)) = mark.isPrefixOf (c :: rest) := by
        rw [Bool.eq_iff_iff, isPrefixOf_iff_prefix, isPrefixOf_iff_prefix,
          ← cons_append, prefix_append_blanks_iff blank clear]
      rw [cons_append, dropLineCommentsFrom, dropLineCommentsFrom, opens]
      split
      next =>
        rcases ih false with ⟨left, leftBlank, same⟩
        exact ⟨left, leftBlank, by rw [same, cons_append]⟩
      next =>
        split
        next => exact ih true
        next =>
          rcases ih false with ⟨left, leftBlank, same⟩
          exact ⟨left, leftBlank, by rw [same, cons_append]⟩

theorem afterBlock?_append_blanks (text : List Char) :
    afterBlock? (text ++ back) = (afterBlock? text).map (· ++ back) := by
  induction text using afterBlock?.induct with
  | case1 rest => rfl
  | case2 c rest shape ih =>
      have still : ∀ more, c = '*' → rest ++ back = '/' :: more → False := by
        intro more star slash
        rcases exists_cons_of_append_blanks blank (by decide) slash with ⟨old, same⟩
        exact shape old star same
      rw [cons_append, afterBlock?.eq_2 c (rest ++ back) still, ih,
        afterBlock?.eq_2 c rest shape]
  | case3 =>
      refine afterBlock?_eq_none_iff.mpr ?_
      intro closed
      exact absurd (blank '*' (closed.subset mem_cons_self)) (by decide)

theorem dropBlockComments_append_blanks (text : List Char) :
    dropBlockComments (text ++ back) = dropBlockComments text ++ back := by
  fun_induction dropBlockComments text with
  | case1 rest after closed ih =>
      have still : afterBlock? (rest ++ back) = some (after ++ back) := by
        rw [afterBlock?_append_blanks blank, closed, Option.map_some]
      rw [← ih]
      exact dropBlockComments_of_closed still
  | case2 rest unclosed ih =>
      have still : afterBlock? (rest ++ back) = none := by
        rw [afterBlock?_append_blanks blank, unclosed, Option.map_none]
      have kept : dropBlockComments ('/' :: ('*' :: rest ++ back)) =
          '/' :: dropBlockComments ('*' :: rest ++ back) := by
        apply dropBlockComments_cons
        intro more _ star
        rw [← (cons.inj star).2]
        exact still
      rw [cons_append, kept, ih, cons_append]
  | case3 c rest shape ih =>
      rw [cons_append, cons_append, ← ih]
      apply dropBlockComments_cons
      intro more slash star
      rcases exists_cons_of_append_blanks blank (by decide) star with ⟨old, same⟩
      exact absurd same (shape old slash)
  | case4 =>
      apply dropBlockComments_eq_self
      intro holds
      exact absurd (blank '*' (holds.closed.subset mem_cons_self)) (by decide)

theorem collapseFrom_append_blanks (afterBlank : Bool) (text : List Char) :
    ∃ left, (∀ c ∈ left, isBlank c = true) ∧
      collapseFrom afterBlank (text ++ back) = collapseFrom afterBlank text ++ left := by
  induction text generalizing afterBlank with
  | nil =>
      refine ⟨collapseFrom afterBlank back, ?_, rfl⟩
      intro c member
      by_contra other
      have clear : ∀ d ∈ [c], ¬ isBlank d = true := by
        intro d same
        rw [mem_singleton.mp same]
        exact other
      have kept := infix_of_infix_collapseFrom clear ((singleton_infix_iff _ _).mpr member)
      exact other (blank c ((singleton_infix_iff _ _).mp kept))
  | cons c rest ih =>
      rw [cons_append, collapseFrom, collapseFrom]
      split
      next =>
        rcases ih true with ⟨left, leftBlank, same⟩
        cases afterBlank with
        | true => exact ⟨left, leftBlank, same⟩
        | false => exact ⟨left, leftBlank, congrArg (' ' :: ·) same⟩
      next =>
        rcases ih false with ⟨left, leftBlank, same⟩
        exact ⟨left, leftBlank, congrArg (c :: ·) same⟩

end Steps

section Front

variable {front : List Char} (blank : ∀ c ∈ front, isBlank c = true)

include blank

theorem dropLineComments_blanks_append {mark : List Char} (present : mark ≠ [])
    (clear : ∀ c ∈ mark, ¬ isBlank c = true) (text : List Char) :
    dropLineCommentsFrom mark false (front ++ text) =
      front ++ dropLineCommentsFrom mark false text := by
  induction front with
  | nil => rfl
  | cons c rest ih =>
      have closed : ¬ mark <+: c :: (rest ++ text) := by
        intro opens
        rcases prefix_cons_iff.mp opens with empty | ⟨more, rfl, -⟩
        · exact present empty
        · exact clear c mem_cons_self (blank c mem_cons_self)
      rw [cons_append, dropLineCommentsFrom_cons (Or.inr closed), cons_append, ih]
      exact fun d member => blank d (mem_cons_of_mem c member)

theorem dropBlockComments_blanks_append (text : List Char) :
    dropBlockComments (front ++ text) = front ++ dropBlockComments text := by
  induction front with
  | nil => rfl
  | cons c rest ih =>
      rw [cons_append, dropBlockComments_cons, cons_append, ih]
      · exact fun d member => blank d (mem_cons_of_mem c member)
      · rintro more rfl -
        exact absurd (blank '/' mem_cons_self) (by decide)

theorem collapseFrom_blanks_append (text : List Char) :
    ∃ left, (∀ c ∈ left, isBlank c = true) ∧
      collapseFrom false (front ++ text) = left ++ collapseFrom false text := by
  have space : ∀ c ∈ [' '], isBlank c = true := by
    intro c same
    rw [mem_singleton.mp same]
    exact isBlank_space
  cases front with
  | nil => exact ⟨[], forall_mem_nil _, rfl⟩
  | cons c rest =>
      have merged : collapseFrom false (c :: rest ++ text) =
          ' ' :: collapseFrom false (text.dropWhile isBlank) := by
        rw [cons_append, collapseFrom, if_pos (blank c mem_cons_self),
          if_neg Bool.false_ne_true, collapseFrom_true, dropWhile_append_of_pos]
        exact fun d member => blank d (mem_cons_of_mem c member)
      rw [merged]
      -- The blanks become one with the blanks that the text begins with.
      cases text with
      | nil => exact ⟨[' '], space, rfl⟩
      | cons d more =>
          by_cases first : isBlank d = true
          · refine ⟨[], forall_mem_nil _, ?_⟩
            rw [collapseFrom, if_pos first, if_neg Bool.false_ne_true, collapseFrom_true,
              dropWhile_cons_of_pos first]
            rfl
          · refine ⟨[' '], space, ?_⟩
            rw [dropWhile_cons_of_neg first]
            rfl

end Front

variable {padded text : List Char}

theorem Pads.dropLineComments (pads : Pads padded text) :
    Pads (dropLineComments "//" padded) (dropLineComments "//" text) := by
  rcases pads with ⟨front, back, frontBlank, backBlank, rfl⟩
  have clear : ∀ c ∈ "//".toList, ¬ isBlank c = true := any_eq_false.mp rfl
  have present : "//".toList ≠ [] := cons_ne_nil '/' ['/']
  rcases dropLineComments_append_blanks backBlank clear false (front ++ text)
    with ⟨left, leftBlank, same⟩
  refine ⟨front, left, frontBlank, leftBlank, ?_⟩
  rw [Text.dropLineComments, same, dropLineComments_blanks_append frontBlank present clear]
  rfl

theorem Pads.dropBlockComments (pads : Pads padded text) :
    Pads (dropBlockComments padded) (dropBlockComments text) := by
  rcases pads with ⟨front, back, frontBlank, backBlank, rfl⟩
  refine ⟨front, back, frontBlank, backBlank, ?_⟩
  rw [dropBlockComments_append_blanks backBlank, dropBlockComments_blanks_append frontBlank]

theorem Pads.collapseBlanks (pads : Pads padded text) :
    Pads (collapseBlanks padded) (collapseBlanks text) := by
  rcases pads with ⟨front, back, frontBlank, backBlank, rfl⟩
  rcases collapseFrom_append_blanks backBlank false (front ++ text) with ⟨right, rightBlank, same⟩
  rcases collapseFrom_blanks_append frontBlank text with ⟨left, leftBlank, before⟩
  refine ⟨left, right, leftBlank, rightBlank, ?_⟩
  rw [Text.collapseBlanks, same, before]
  rfl

/-- Blanks around a script make no difference to its form. -/
theorem scriptForm_trim (source : List Char) : scriptForm (trim source) = scriptForm source := by
  have steps := (pads_trim source).dropLineComments.dropBlockComments.collapseBlanks
  exact steps.trim_eq.symm

/-- Without hash signs the two normal forms agree, though each of them removes comments and blanks
by patterns of its own: one takes all that is left of a line, the other as little as gets it to the
end of the line. -/
theorem forms_agree_without_hash (source : List Char) (noHash : '#' ∉ source) :
    normalForm source = scriptForm source ∧
      normalForm source = trim (blankRun.replace [' '] (blockComment.replace []
        ((restOfLine "//").replace [] ((restOfLine "#").replace [] (trim source))))) ∧
      scriptForm source = trim (blankRun.replace [' '] (blockComment.replace []
        ((upToLineEnd "//").replace [] source))) := by
  have slashes : "//".toList ≠ [] ∧ '\n' ∉ "//".toList := by decide
  have hash : "#".toList ≠ [] ∧ '\n' ∉ "#".toList := by decide
  have noMark : ¬ "#".toList <:+: trim source := by
    intro found
    exact noHash ((trim_isInfix source).subset ((singleton_infix_iff _ _).mp found))
  refine ⟨?_, ?_, ?_⟩
  · rw [← scriptForm_trim, normalForm, Text.dropLineComments, Text.dropLineComments,
      dropLineComments_eq_self noMark]
    rfl
  · rw [replace_restOfLine hash.1 hash.2, replace_restOfLine slashes.1 slashes.2,
      replace_blockComment, replace_blankRun]
    rfl
  · rw [replace_upToLineEnd slashes.1 slashes.2, replace_blockComment, replace_blankRun]
    rfl

/-- A script with comments of both kinds, one that is not closed, and blanks at its ends. -/
def commentedScript : List Char := " /* a */ b  // c\t\n/* d / e* //\n ".toList

theorem commentedScript_forms_agree :
    '#' ∉ commentedScript ∧ normalForm commentedScript = scriptForm commentedScript := by
  have noHash : '#' ∉ commentedScript := by
    decide
  exact ⟨noHash, (forms_agree_without_hash commentedScript noHash).1⟩

end Text
end CodeQuality
