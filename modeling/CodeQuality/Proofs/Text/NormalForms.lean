import CodeQuality.Proofs.Text.Patterns
import Mathlib.Data.List.DropRight
import Mathlib.Data.List.Infix

namespace CodeQuality
namespace Text

/-!
What is left in a normal form.

Four steps lead to a normal form, and each of them could undo what an earlier one has
done: where something is removed, the characters on both sides of it come together.
A block comment is different.  No slash stands before it, since the two slashes would
open a comment that the line ends, and none stands behind it for the same reason.  So
nothing is put together that opens or closes a comment.

The texts that satisfy all that is asked of a normal form are the ones that the steps
leave alone.
-/

/-- Whether a block comment is opened in a text and closed behind that. -/
def HoldsBlock (text : List Char) : Prop :=
  ∃ inner, "/*".toList ++ inner ++ "*/".toList <:+: text

/-- What is asked of the normal form of a script: no comment is in it, and its blanks are single
spaces between other characters. -/
structure IsNormal (text : List Char) : Prop where
  noLineComment : ¬ "//".toList <:+: text
  noBlockComment : ¬ HoldsBlock text
  spaces : ∀ c ∈ text, isBlank c = true → c = ' '
  single : ¬ [' ', ' '] <:+: text
  front : text.head? ≠ some ' '
  back : text.getLast? ≠ some ' '

variable {c d : Char} {mark word text : List Char} {afterBlank : Bool}

/-- Two characters stand somewhere in a text: as the first two, or behind the first. -/
theorem pair_infix_cons {first second : Char} {rest : List Char} :
    [first, second] <:+: c :: rest ↔
      (first = c ∧ rest.head? = some second) ∨ [first, second] <:+: rest := by
  rw [List.infix_cons_iff, List.cons_prefix_cons]
  cases rest with
  | nil => simp
  | cons d more => simp [List.cons_prefix_cons, eq_comm]

/-! ## Comments that the line ends -/

/-- Inside of a comment nothing of the line is left. -/
theorem eq_nil_of_prefix_comment (oneLine : '\n' ∉ word)
    (front : word <+: dropLineCommentsFrom mark true text) : word = [] := by
  induction text with
  | nil => exact List.prefix_nil.mp front
  | cons c rest ih =>
      by_cases newline : c = '\n'
      · rw [dropLineCommentsFrom, if_pos newline] at front
        rcases List.prefix_cons_iff.mp front with empty | ⟨more, rfl, -⟩
        · exact empty
        · exact absurd List.mem_cons_self oneLine
      · rw [dropLineCommentsFrom, if_neg newline, Bool.true_or, if_pos rfl] at front
        exact ih front

/-- What stands at the front after comments have gone was there before. -/
theorem prefix_of_prefix_dropLineComments (oneLine : '\n' ∉ word)
    (front : word <+: dropLineCommentsFrom mark false text) : word <+: text := by
  induction text generalizing word with
  | nil => exact front
  | cons c rest ih =>
      by_cases stays : c = '\n' ∨ ¬ mark <+: c :: rest
      · rw [dropLineCommentsFrom_cons stays] at front
        rcases List.prefix_cons_iff.mp front with rfl | ⟨more, rfl, behind⟩
        · exact List.nil_prefix
        · rw [List.mem_cons, not_or] at oneLine
          exact List.cons_prefix_cons.mpr ⟨rfl, ih oneLine.2 behind⟩
      · rw [not_or, not_not] at stays
        rw [dropLineCommentsFrom_of_opens stays.1 stays.2] at front
        rw [eq_nil_of_prefix_comment oneLine front]
        exact List.nil_prefix

/-- No mark is left of the comments that it opens. -/
theorem not_infix_dropLineComments (present : mark ≠ []) (oneLine : '\n' ∉ mark) (inside : Bool)
    (text : List Char) : ¬ mark <:+: dropLineCommentsFrom mark inside text := by
  induction text generalizing inside with
  | nil => exact fun found => present (List.infix_nil.mp found)
  | cons c rest ih =>
      intro found
      rw [dropLineCommentsFrom] at found
      split at found
      next newline =>
        rcases List.infix_cons_iff.mp found with front | behind
        · rcases List.prefix_cons_iff.mp front with empty | ⟨more, rfl, -⟩
          · exact present empty
          · exact oneLine List.mem_cons_self
        · exact ih false behind
      next inLine =>
        split at found
        next => exact ih true found
        next closed =>
          rw [Bool.or_eq_true, not_or, List.isPrefixOf_iff_prefix] at closed
          rcases List.infix_cons_iff.mp found with front | behind
          · rw [← dropLineCommentsFrom_cons (Or.inr closed.2)] at front
            exact closed.2 (prefix_of_prefix_dropLineComments oneLine front)
          · exact ih false behind

theorem dropLineComments_eq_self (absent : ¬ mark <:+: text) :
    dropLineCommentsFrom mark false text = text := by
  induction text with
  | nil => rfl
  | cons c rest ih =>
      rw [List.infix_cons_iff, not_or] at absent
      rw [dropLineCommentsFrom_cons (Or.inr absent.1), ih absent.2]

theorem mem_of_mem_dropLineComments {inside : Bool}
    (member : d ∈ dropLineCommentsFrom mark inside text) : d ∈ text := by
  induction text generalizing inside with
  | nil => exact member
  | cons c rest ih =>
      rw [dropLineCommentsFrom] at member
      split at member
      next newline =>
        rcases List.mem_cons.mp member with same | behind
        · rw [same, newline]
          exact List.mem_cons_self
        · exact List.mem_cons_of_mem c (ih behind)
      next =>
        split at member
        next => exact List.mem_cons_of_mem c (ih member)
        next =>
          rcases List.mem_cons.mp member with same | behind
          · rw [same]
            exact List.mem_cons_self
          · exact List.mem_cons_of_mem c (ih behind)

/-! ## Block comments -/

/-- A block comment that begins with the first character, or one behind it. -/
theorem holdsBlock_cons {rest : List Char} :
    HoldsBlock (c :: rest) ↔
      (∃ more, c = '/' ∧ rest = '*' :: more ∧ "*/".toList <:+: more) ∨ HoldsBlock rest := by
  constructor
  · rintro ⟨inner, found⟩
    rcases List.infix_cons_iff.mp found with ⟨after, whole⟩ | behind
    · left
      rcases List.cons.inj whole with ⟨rfl, rest_eq⟩
      refine ⟨inner ++ "*/".toList ++ after, rfl, rest_eq.symm, inner, after, rfl⟩
    · exact Or.inr ⟨inner, behind⟩
  · rintro (⟨more, rfl, rfl, inner, after, rfl⟩ | ⟨inner, behind⟩)
    · exact ⟨inner, [], after, rfl⟩
    · exact ⟨inner, List.infix_cons behind⟩

theorem afterBlock?_eq_none_iff : afterBlock? text = none ↔ ¬ "*/".toList <:+: text := by
  induction text using afterBlock?.induct with
  | case1 rest =>
      refine ⟨fun closed => ?_, fun absent => absurd ⟨[], rest, rfl⟩ absent⟩
      cases closed
  | case2 c rest shape ih =>
      rw [afterBlock?.eq_2 c rest shape, ih, List.infix_cons_iff, not_or, iff_and_self]
      rintro - ⟨after, whole⟩
      rcases List.cons.inj whole with ⟨star, slash⟩
      exact shape after star.symm slash.symm
  | case3 =>
      refine ⟨fun _ closed => ?_, fun _ => rfl⟩
      cases List.infix_nil.mp closed

theorem suffix_of_afterBlock? {after : List Char} (found : afterBlock? text = some after) :
    after <:+ text := by
  induction text using afterBlock?.induct with
  | case1 rest =>
      rw [← Option.some.inj found]
      exact ⟨['*', '/'], rfl⟩
  | case2 c rest shape ih =>
      rw [afterBlock?.eq_2 c rest shape] at found
      exact (ih found).trans (List.suffix_cons c rest)
  | case3 => cases found

theorem dropBlockComments_eq_self (absent : ¬ HoldsBlock text) : dropBlockComments text = text := by
  induction text with
  | nil => rw [dropBlockComments]
  | cons c rest ih =>
      rw [holdsBlock_cons, not_or] at absent
      rw [dropBlockComments_cons, ih absent.2]
      intro more slash star
      rw [afterBlock?_eq_none_iff]
      exact fun closed => absent.1 ⟨more, slash, star, closed⟩

theorem mem_of_mem_dropBlockComments (member : d ∈ dropBlockComments text) : d ∈ text := by
  fun_induction dropBlockComments text with
  | case1 rest after closed ih =>
      have kept := (suffix_of_afterBlock? closed).subset (ih member)
      exact List.mem_cons_of_mem '/' (List.mem_cons_of_mem '*' kept)
  | case2 rest unclosed ih =>
      rcases List.mem_cons.mp member with rfl | behind
      · exact List.mem_cons_self
      · exact List.mem_cons_of_mem '/' (ih behind)
  | case3 c rest shape ih =>
      rcases List.mem_cons.mp member with rfl | behind
      · exact List.mem_cons_self
      · exact List.mem_cons_of_mem c (ih behind)
  | case4 => exact member

theorem head?_dropBlockComments (noSlash : text.head? ≠ some '/') :
    (dropBlockComments text).head? = text.head? := by
  cases text with
  | nil => rw [dropBlockComments]
  | cons c rest =>
      rw [dropBlockComments_cons]
      · rfl
      · rintro more rfl -
        exact absurd rfl noSlash

theorem HoldsBlock.closed (holds : HoldsBlock text) : "*/".toList <:+: text := by
  rcases holds with ⟨inner, found⟩
  exact (List.suffix_append _ _).isInfix.trans found

/-- Without a comment that the line ends, removing block comments puts no new comment together. -/
theorem dropBlockComments_leaves (noLine : ¬ "//".toList <:+: text) :
    ¬ "//".toList <:+: dropBlockComments text ∧ ¬ HoldsBlock (dropBlockComments text) := by
  fun_induction dropBlockComments text with
  | case1 rest after closed ih =>
      apply ih
      intro found
      have behind := found.trans (suffix_of_afterBlock? closed).isInfix
      exact noLine (List.infix_cons (List.infix_cons behind))
  | case2 rest unclosed ih =>
      have neverClosed := afterBlock?_eq_none_iff.mp unclosed
      have noBlock : ¬ HoldsBlock ('*' :: rest) := by
        rw [holdsBlock_cons]
        rintro (⟨more, slash, -⟩ | behind)
        · cases slash
        · exact neverClosed behind.closed
      rw [dropBlockComments_eq_self noBlock]
      refine ⟨noLine, ?_⟩
      rw [holdsBlock_cons]
      rintro (⟨more, -, same, closed⟩ | behind)
      · rw [← (List.cons.inj same).2] at closed
        exact neverClosed closed
      · exact noBlock behind
  | case3 c rest shape ih =>
      have noPair := (not_congr pair_infix_cons).mp noLine
      rw [not_or, not_and] at noPair
      rcases ih noPair.2 with ⟨noLineBehind, noBlockBehind⟩
      -- A slash that is kept has the same character behind it as before.
      have follows : '/' = c → (dropBlockComments rest).head? = rest.head? :=
        fun slash => head?_dropBlockComments (noPair.1 slash)
      constructor
      · intro found
        rcases pair_infix_cons.mp found with ⟨slash, next⟩ | behind
        · exact noPair.1 slash (follows slash ▸ next)
        · exact noLineBehind behind
      · intro holds
        rcases holdsBlock_cons.mp holds with ⟨more, slash, star, -⟩ | behind
        · have next : rest.head? = some '*' := by
            rw [← follows slash.symm, star]
            rfl
          rcases List.head?_eq_some_iff.mp next with ⟨more, star⟩
          exact shape more slash star
        · exact noBlockBehind behind
  | case4 => exact ⟨noLine, fun holds => by cases List.infix_nil.mp holds.closed⟩

/-! ## Blanks -/

theorem isBlank_space : isBlank ' ' = true := by decide

/-- Behind a blank that has been replaced comes no space. -/
theorem head?_collapseFrom_true (text : List Char) : (collapseFrom true text).head? ≠ some ' ' := by
  induction text with
  | nil =>
      intro space
      cases space
  | cons c rest ih =>
      by_cases blank : isBlank c = true
      · rw [collapseFrom, if_pos blank, if_pos rfl]
        exact ih
      · rw [collapseFrom, if_neg blank]
        intro space
        rw [Option.some.inj space] at blank
        exact blank isBlank_space

theorem single_collapseFrom (afterBlank : Bool) (text : List Char) :
    ¬ [' ', ' '] <:+: collapseFrom afterBlank text := by
  induction text generalizing afterBlank with
  | nil =>
      intro found
      cases List.infix_nil.mp found
  | cons c rest ih =>
      intro found
      rw [collapseFrom] at found
      split at found
      next =>
        cases afterBlank with
        | true => exact ih true found
        | false =>
            rcases pair_infix_cons.mp found with ⟨-, next⟩ | behind
            · exact head?_collapseFrom_true rest next
            · exact ih true behind
      next other =>
        rcases pair_infix_cons.mp found with ⟨space, -⟩ | behind
        · exact other (space ▸ isBlank_space)
        · exact ih false behind

theorem eq_space_of_mem_collapseFrom (member : d ∈ collapseFrom afterBlank text)
    (blank : isBlank d = true) : d = ' ' := by
  induction text generalizing afterBlank with
  | nil => cases member
  | cons c rest ih =>
      rw [collapseFrom] at member
      split at member
      next =>
        cases afterBlank with
        | true => exact ih member
        | false =>
            rcases List.mem_cons.mp member with space | behind
            · exact space
            · exact ih behind
      next other =>
        rcases List.mem_cons.mp member with same | behind
        · exact absurd (same ▸ blank) other
        · exact ih behind

theorem collapseFrom_eq_self (spaces : ∀ c ∈ text, isBlank c = true → c = ' ')
    (single : ¬ [' ', ' '] <:+: text) (start : afterBlank = true → text.head? ≠ some ' ') :
    collapseFrom afterBlank text = text := by
  induction text generalizing afterBlank with
  | nil => rfl
  | cons c rest ih =>
      rw [pair_infix_cons, not_or, not_and] at single
      have spacesBehind : ∀ d ∈ rest, isBlank d = true → d = ' ' :=
        fun d member => spaces d (List.mem_cons_of_mem c member)
      rw [collapseFrom]
      by_cases blank : isBlank c = true
      · have space := spaces c List.mem_cons_self blank
        cases afterBlank with
        | true => exact absurd (congrArg some space) (start rfl)
        | false =>
            rw [if_pos blank, if_neg Bool.false_ne_true, space,
              ih spacesBehind single.2 fun _ => single.1 space.symm]
      · have kept : collapseFrom false rest = rest :=
          ih spacesBehind single.2 fun impossible => absurd impossible Bool.false_ne_true
        rw [if_neg blank, kept]

/-- What stands at the front of a text after its blanks have been merged, up to the first blank, was
there before. -/
theorem prefix_of_prefix_collapseFrom (clear : ∀ c ∈ word, ¬ isBlank c = true)
    (front : word <+: collapseFrom false text) : word <+: text := by
  induction text generalizing word with
  | nil => exact front
  | cons c rest ih =>
      rw [collapseFrom] at front
      split at front
      next =>
        rcases List.prefix_cons_iff.mp front with rfl | ⟨more, rfl, -⟩
        · exact List.nil_prefix
        · exact absurd isBlank_space (clear ' ' List.mem_cons_self)
      next =>
        rcases List.prefix_cons_iff.mp front with rfl | ⟨more, rfl, behind⟩
        · exact List.nil_prefix
        · refine List.cons_prefix_cons.mpr ⟨rfl, ih ?_ behind⟩
          exact fun d member => clear d (List.mem_cons_of_mem c member)

theorem infix_of_infix_collapseFrom (clear : ∀ c ∈ word, ¬ isBlank c = true)
    (found : word <:+: collapseFrom afterBlank text) : word <:+: text := by
  induction text generalizing afterBlank with
  | nil => exact found
  | cons c rest ih =>
      rw [collapseFrom] at found
      split at found
      next =>
        cases afterBlank with
        | true => exact List.infix_cons (ih found)
        | false =>
            rcases List.infix_cons_iff.mp found with front | behind
            · rcases List.prefix_cons_iff.mp front with rfl | ⟨more, rfl, -⟩
              · exact List.nil_infix
              · exact absurd isBlank_space (clear ' ' List.mem_cons_self)
            · exact List.infix_cons (ih behind)
      next other =>
        rcases List.infix_cons_iff.mp found with front | behind
        · have kept : collapseFrom false (c :: rest) = c :: collapseFrom false rest := by
            rw [collapseFrom, if_neg other]
          rw [← kept] at front
          exact (prefix_of_prefix_collapseFrom clear front).isInfix
        · exact List.infix_cons (ih behind)

theorem holdsBlock_of_collapseFrom (holds : HoldsBlock (collapseFrom afterBlank text)) :
    HoldsBlock text := by
  induction text generalizing afterBlank with
  | nil => exact holds
  | cons c rest ih =>
      rw [collapseFrom] at holds
      rw [holdsBlock_cons]
      split at holds
      next =>
        cases afterBlank with
        | true => exact Or.inr (ih holds)
        | false =>
            rcases holdsBlock_cons.mp holds with ⟨more, slash, -⟩ | behind
            · cases slash
            · exact Or.inr (ih behind)
      next =>
        rcases holdsBlock_cons.mp holds with ⟨more, slash, star, closed⟩ | behind
        · left
          have front : ['*'] <+: collapseFrom false rest := ⟨more, star.symm⟩
          rcases prefix_of_prefix_collapseFrom (List.any_eq_false.mp rfl) front with ⟨old, rfl⟩
          refine ⟨old, slash, rfl, ?_⟩
          have behind : collapseFrom false old = more := (List.cons.inj star).2
          rw [← behind] at closed
          exact infix_of_infix_collapseFrom (List.any_eq_false.mp rfl) closed
        · exact Or.inr (ih behind)

/-! ## The ends of a text -/

theorem trim_isInfix (text : List Char) : trim text <:+: text :=
  (List.rdropWhile_prefix isBlank (trimLeft text)).isInfix.trans
    (List.dropWhile_suffix isBlank).isInfix

/-- What is left after trimming has no blanks around it. -/
theorem isBlank_of_head?_trim (first : (trim text).head? = some c) : isBlank c = false := by
  rcases List.head?_eq_some_iff.mp first with ⟨more, trimmed⟩
  rcases List.rdropWhile_prefix isBlank (trimLeft text) with ⟨back, whole⟩
  have front : text.dropWhile isBlank = c :: (more ++ back) := by
    rw [← List.cons_append, ← trimmed]
    exact whole.symm
  have clear := List.head?_dropWhile_not isBlank text
  rw [front] at clear
  exact clear

theorem isBlank_of_getLast?_trim (last : (trim text).getLast? = some c) : isBlank c = false := by
  rcases List.getLast?_eq_some_iff.mp last with ⟨front, trimmed⟩
  have present : trim text ≠ [] := trimmed ▸ List.append_ne_nil_of_right_ne_nil _ (by simp)
  have clear := List.rdropWhile_last_not isBlank (trimLeft text) present
  have same : (trim text).getLast present = c :=
    Option.some.inj ((List.getLast?_eq_some_getLast present).symm.trans last)
  exact same ▸ Bool.eq_false_iff.mpr clear

theorem trim_eq_self (front : ∀ c ∈ text.head?, isBlank c = false)
    (back : ∀ c ∈ text.getLast?, isBlank c = false) : trim text = text := by
  have left : trimLeft text = text := by
    cases text with
    | nil => rfl
    | cons c rest => exact List.dropWhile_cons_of_neg (Bool.eq_false_iff.mp (front c rfl))
  rw [trim, left]
  apply List.rdropWhile_eq_self_iff.mpr
  intro present
  exact Bool.eq_false_iff.mp (back _ (List.getLast?_eq_some_getLast present))

/-! ## Normal forms -/

/-- Without comments that the line ends, the other steps lead to a normal form. -/
theorem isNormal_of_noLineComment (noLine : ¬ "//".toList <:+: text) :
    IsNormal (trim (collapseBlanks (dropBlockComments text))) := by
  have leaves := dropBlockComments_leaves noLine
  have inside := trim_isInfix (collapseBlanks (dropBlockComments text))
  refine ⟨?_, ?_, ?_, ?_, fun space => absurd (isBlank_of_head?_trim space) (by decide),
    fun space => absurd (isBlank_of_getLast?_trim space) (by decide)⟩
  · intro found
    exact leaves.1 (infix_of_infix_collapseFrom (List.any_eq_false.mp rfl) (found.trans inside))
  · rintro ⟨inner, found⟩
    exact leaves.2 (holdsBlock_of_collapseFrom ⟨inner, found.trans inside⟩)
  · intro c member blank
    exact eq_space_of_mem_collapseFrom (inside.subset member) blank
  · intro found
    exact single_collapseFrom false _ (found.trans inside)

theorem IsNormal.trim_eq (normal : IsNormal text) : trim text = text := by
  apply trim_eq_self
  · intro c first
    refine Bool.eq_false_iff.mpr fun blank => normal.front ?_
    rw [← normal.spaces c (List.mem_of_mem_head? first) blank]
    exact first
  · intro c last
    refine Bool.eq_false_iff.mpr fun blank => normal.back ?_
    rw [← normal.spaces c (List.mem_of_getLast? last) blank]
    exact last

theorem IsNormal.steps_eq (normal : IsNormal text) :
    trim (collapseBlanks (dropBlockComments text)) = text := by
  have merged : collapseFrom false text = text :=
    collapseFrom_eq_self normal.spaces normal.single
      fun impossible => absurd impossible Bool.false_ne_true
  rw [dropBlockComments_eq_self normal.noBlockComment, collapseBlanks, merged,
    normal.trim_eq]

theorem isNormal_scriptForm (source : List Char) : IsNormal (scriptForm source) :=
  isNormal_of_noLineComment
    (not_infix_dropLineComments (List.cons_ne_nil '/' ['/']) (by decide) false source)

theorem isNormal_normalForm (source : List Char) : IsNormal (normalForm source) :=
  isNormal_of_noLineComment
    (not_infix_dropLineComments (List.cons_ne_nil '/' ['/']) (by decide) false _)

theorem hash_notMem_normalForm (source : List Char) : '#' ∉ normalForm source := by
  intro member
  have merged := (trim_isInfix _).subset member
  have kept : ['#'] <:+: _ :=
    infix_of_infix_collapseFrom (List.any_eq_false.mp rfl)
      ((List.singleton_infix_iff _ _).mpr merged)
  have before := mem_of_mem_dropBlockComments ((List.singleton_infix_iff _ _).mp kept)
  have first := mem_of_mem_dropLineComments before
  exact not_infix_dropLineComments (List.cons_ne_nil '#' []) (by decide) false (trim source)
    ((List.singleton_infix_iff _ _).mpr first)

theorem IsNormal.scriptForm_eq (normal : IsNormal text) : scriptForm text = text := by
  rw [scriptForm, dropLineComments, dropLineComments_eq_self normal.noLineComment, normal.steps_eq]

theorem IsNormal.normalForm_eq (normal : IsNormal text) (noHash : '#' ∉ text) :
    normalForm text = text := by
  have noMark : ¬ "#".toList <:+: text :=
    fun found => noHash ((List.singleton_infix_iff _ _).mp found)
  rw [normalForm, normal.trim_eq, dropLineComments, dropLineComments,
    dropLineComments_eq_self noMark, dropLineComments_eq_self normal.noLineComment,
    normal.steps_eq]

/-- Every source has a normal form in which nothing is left to be done, and the texts that have
themselves for their normal form are the ones that satisfy what is asked of it. -/
theorem forms_are_normal (source : List Char) :
    IsNormal (normalForm source) ∧ '#' ∉ normalForm source ∧
      normalForm (normalForm source) = normalForm source ∧
      (normalForm source = source ↔ IsNormal source ∧ '#' ∉ source) ∧
      IsNormal (scriptForm source) ∧ scriptForm (scriptForm source) = scriptForm source ∧
      (scriptForm source = source ↔ IsNormal source) := by
  have normal := isNormal_normalForm source
  have noHash := hash_notMem_normalForm source
  have script := isNormal_scriptForm source
  refine ⟨normal, noHash, normal.normalForm_eq noHash, ⟨?_, ?_⟩, script, script.scriptForm_eq,
    ⟨?_, ?_⟩⟩
  · intro same
    rw [same] at normal noHash
    exact ⟨normal, noHash⟩
  · exact fun parts => parts.1.normalForm_eq parts.2
  · intro same
    rw [same] at script
    exact script
  · exact fun holds => holds.scriptForm_eq

end Text
end CodeQuality
