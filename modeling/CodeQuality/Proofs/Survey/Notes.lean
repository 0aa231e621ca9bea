import CodeQuality.Proofs.Syntax.Places
import CodeQuality.Proofs.Text.Matches
import CodeQuality.Proofs.Text.Stretches
import CodeQuality.Script.Suspicion
import CodeQuality.Script.Tree
import CodeQuality.Syntax.Tree
import Mathlib.Data.List.Forall2

namespace CodeQuality

open Text List

/-!
The lines of notes.

Notes of work left to do are looked for in the lines of a text, and a line ends there at every
character that can end one.  All other lines that are reported count line feeds.  Main result:
a note tells the line that it stands on if and only if all line breaks in front of it are line
feeds, and so do a note and anything else that is reported on its line tell the same line.
-/

/-- Whether a character is a line feed. -/
def isLineFeed (c : Char) : Bool := c == '\n'

variable {c : Char} {source : List Char}

theorem isLineFeed_iff : isLineFeed c = true ↔ c = '\n' := beq_iff_eq

/-- No line of a text ends other than with a line feed. -/
def HasOnlyLineFeeds (text : List Char) : Prop := ∀ c ∈ text, isLineBreak c = true → c = '\n'

/-- A stretch of a text is inside of the line with a number, where line feeds end lines. -/
def Text.Stretch.StandsOn (source : List Char) (number : Nat) (stretch : Stretch) : Prop :=
  ∃ own : Stretch, own.IsLineOf isLineFeed source ∧ own.number isLineFeed = number ∧
    own.Spans stretch.front ∧ own.Spans (stretch.front ++ stretch.line)

/-- What else is reported on a text, with the place where it stands and the line that is told. -/
inductive Reported (source : List Char) : (place : List Char) → (line : Nat) → Prop
  /-- A suspicious construct that is found in the text. -/
  | construct {kind : String} {scan : Option Char → Scanner Unit} {found : Match Unit}
      (listed : (kind, scan) ∈ Script.constructs) (member : found ∈ findMatches scan source) :
      Reported source (source.take found.offset) found.line
  /-- A node of the syntax tree of a script. -/
  | scriptNode (node : Script.Node) :
      Reported source (upTo source node.start) (node.line source)
  /-- A node of a syntax tree that starts with a token of the text.  Nodes inside of formatted
  strings are left out: they start with tokens of another text, that of the string. -/
  | node {tokens : List Syntax.Token} {token : Syntax.Token} {node : Syntax.Node}
      {place : List Char} (cut : Syntax.tokens? source = some tokens) (member : token ∈ tokens)
      (begins : node.start = token.start)
      (stands : node.start = Syntax.Position.afterAll ⟨1, 0⟩ place) :
      Reported source place node.start.line

/-- What a note says of the line of the text in which it was found. -/
structure NotedAs (source : List Char) (stretch : Stretch) (todo : Todo) : Prop where
  /-- It quotes the line. -/
  text : todo.text = String.ofList (trim stretch.line)
  /-- The line that it tells is the one that it stands on. -/
  line : stretch.StandsOn source todo.line ↔ HasOnlyLineFeeds stretch.front
  /-- The line that it tells is the one that is told of everything else there. -/
  others : ∀ own : Stretch, own.IsLineOf isLineFeed source → own.Spans stretch.front →
    ∀ place line, own.Spans place → Reported source place line →
      (line = todo.line ↔ HasOnlyLineFeeds stretch.front)

/-! ## Notes and the lines of the text -/

/-- The note for a line of the text. -/
def noteOf (stretch : Stretch) : Todo :=
  ⟨stretch.number isLineBreak, String.ofList (trim stretch.line)⟩

theorem notMem_unifyNewlines (text : List Char) : '\r' ∉ unifyNewlines text := by
  fun_induction unifyNewlines text with
  | case1 => exact not_mem_nil
  | case2 rest ih => exact not_mem_cons_of_ne_of_not_mem (by decide) ih
  | case3 c rest _ ih =>
      refine not_mem_cons_of_ne_of_not_mem ?_ ih
      split
      next => decide
      next other => exact Ne.symm other

theorem linesFrom_cons (current rest : List Char) (other : c ≠ '\r') :
    linesFrom current (c :: rest) =
      if isLineBreak c then current.reverse :: linesFrom [] rest
      else linesFrom (c :: current) rest :=
  linesFrom.eq_3 current c rest fun _ same _ => other same

theorem todosFrom_cons (number : Nat) (line : List Char) (rest : List (List Char)) :
    todosFrom number (line :: rest) =
      (if isTodoLine line then [⟨number, String.ofList (trim line)⟩] else []) ++
        todosFrom (number + 1) rest := by
  rw [todosFrom]
  split
  next => rfl
  next => rfl

theorem todosFrom_linesFrom {front current text : List Char} (unified : '\r' ∉ text)
    (unbroken : ∀ c ∈ current, isLineBreak c = false) :
    todosFrom (front.countP isLineBreak + 1) (linesFrom current text) =
      ((stretchesFrom isLineBreak front current.reverse text).filter fun stretch =>
        isTodoLine stretch.line).map noteOf := by
  induction text generalizing front current with
  | nil =>
      rw [linesFrom, stretchesFrom]
      cases current with
      | nil => rfl
      | cons c rest =>
          rw [isEmpty_cons, if_neg Bool.false_ne_true, todosFrom_cons, filter_cons]
          split
          next => rfl
          next => rfl
  | cons c rest ih =>
      have other : c ≠ '\r' := fun same => unified (same ▸ mem_cons_self)
      have unifiedRest : '\r' ∉ rest := fun member => unified (mem_cons_of_mem c member)
      rw [linesFrom_cons current rest other, stretchesFrom]
      split
      next ends =>
        -- the next line is behind one more break
        have number : (front ++ current.reverse ++ [c]).countP isLineBreak =
            front.countP isLineBreak + 1 := by
          rw [countP_append, countP_append, countP_reverse,
            countP_eq_zero_of_unbroken unbroken, countP_singleton, if_pos ends]
        have onward := @ih (front ++ current.reverse ++ [c]) [] unifiedRest (forall_mem_nil _)
        rw [number, reverse_nil] at onward
        rw [todosFrom_cons, onward, filter_cons]
        split
        next => rfl
        next => rfl
      next inside =>
        have onward := @ih front (c :: current) unifiedRest
          (forall_mem_cons.mpr ⟨Bool.eq_false_iff.mpr inside, unbroken⟩)
        rw [reverse_cons] at onward
        exact onward

/-- The notes of a text are those of its lines, in order. -/
theorem todos_eq_map (unified : '\r' ∉ source) :
    todos source =
      ((stretches isLineBreak source).filter fun stretch => isTodoLine stretch.line).map noteOf :=
  @todosFrom_linesFrom [] [] source unified (forall_mem_nil _)

/-! ## Numbers of lines -/

theorem isLineBreak_of_isLineFeed (feed : isLineFeed c = true) : isLineBreak c = true := by
  rw [isLineFeed_iff.mp feed]
  decide

/-- The two ways to count agree if there is nothing that only one of them counts. -/
theorem countP_isLineFeed_eq_iff (text : List Char) :
    text.countP isLineFeed = text.countP isLineBreak ↔ HasOnlyLineFeeds text := by
  induction text with
  | nil => exact iff_of_true rfl (forall_mem_nil _)
  | cons c rest ih =>
      have fewer : rest.countP isLineFeed ≤ rest.countP isLineBreak :=
        countP_mono_left fun _ _ => isLineBreak_of_isLineFeed
      rw [HasOnlyLineFeeds, forall_mem_cons, ← HasOnlyLineFeeds, ← ih, countP_cons,
        countP_cons]
      by_cases feed : c = '\n'
      · have counted := isLineFeed_iff.mpr feed
        rw [if_pos counted, if_pos (isLineBreak_of_isLineFeed counted), Nat.add_right_cancel_iff]
        exact (and_iff_right fun _ => feed).symm
      · rw [if_neg (mt isLineFeed_iff.mp feed)]
        by_cases ends : isLineBreak c = true
        · rw [if_pos ends]
          exact iff_of_false (by omega) fun both => feed (both.1 ends)
        · rw [if_neg ends]
          exact (and_iff_right fun broken => absurd broken ends).symm

theorem line_afterAll (place : Syntax.Position) (text : List Char) :
    (place.afterAll text).line = place.line + text.countP isLineFeed := by
  induction text generalizing place with
  | nil => rfl
  | cons c rest ih =>
      have onward : (place.afterAll (c :: rest)).line =
          (place.after c).line + rest.countP isLineFeed := ih (place.after c)
      rw [onward, countP_cons, Syntax.Position.after]
      by_cases feed : c = '\n'
      · rw [if_pos feed, if_pos (isLineFeed_iff.mpr feed)]
        exact Nat.add_right_comm place.line 1 _
      · rw [if_neg feed, if_neg (mt isLineFeed_iff.mp feed)]
        rfl

theorem Reported.line_eq {place : List Char} {line : Nat} (reported : Reported source place line) :
    line = place.countP isLineFeed + 1 := by
  cases reported with
  | construct listed member => exact (placed_of_mem_findMatches member).2
  | scriptNode node => rfl
  | node cut member begins stands => rw [stands, line_afterAll, Nat.add_comm]

theorem line_noteOf_iff (stretch : Stretch) :
    stretch.front.countP isLineFeed + 1 = (noteOf stretch).line ↔
      HasOnlyLineFeeds stretch.front := by
  rw [← countP_isLineFeed_eq_iff]
  exact Nat.add_right_cancel_iff

/-- A line that ends at any break is inside of one that ends at a line feed. -/
theorem exists_standing {stretch : Stretch} (isLine : stretch.IsLineOf isLineBreak source) :
    stretch.StandsOn source (stretch.front.countP isLineFeed + 1) := by
  rcases isLine.reaches with ⟨rest, whole, reached⟩
  have unfed : ∀ c ∈ stretch.line, isLineFeed c = false := by
    intro c member
    have unbroken := isLine.unbroken c member
    refine Bool.eq_false_iff.mpr fun feed => ?_
    rw [isLineBreak_of_isLineFeed feed] at unbroken
    cases unbroken
  rcases exists_line_of_unbroken stretch.front (rest.dropWhile fun c => !isLineBreak c) unfed with
    ⟨own, isOwn, first, last⟩
  rw [reached, append_assoc, takeWhile_append_dropWhile, ← whole] at isOwn
  exact ⟨own, isOwn, isOwn.number_eq first, first, last⟩

theorem notedAs_noteOf {stretch : Stretch} (isLine : stretch.IsLineOf isLineBreak source) :
    NotedAs source stretch (noteOf stretch) where
  text := rfl
  line := by
    rw [← line_noteOf_iff]
    constructor
    · rintro ⟨own, isOwn, told, first, _⟩
      exact (isOwn.number_eq first).symm.trans told
    · intro same
      rw [← same]
      exact exists_standing isLine
  others := by
    intro own isOwn spans place line there reported
    have number := (isOwn.number_eq there).symm.trans (isOwn.number_eq spans)
    rw [reported.line_eq, number, line_noteOf_iff]

/-- The lines with notes come in order, each has one, and it is what it should be if and only if
all line breaks in front of it are line feeds. -/
theorem notes_tell_lines_iff (text : List Char) :
    ∃ noted : List Stretch,
      noted.Pairwise (fun first second => first.front.length < second.front.length) ∧
      (∀ stretch, stretch ∈ noted ↔
        stretch.IsLineOf isLineBreak (unifyNewlines text) ∧ isTodoLine stretch.line = true) ∧
      Forall₂ (NotedAs (unifyNewlines text)) noted (todos (unifyNewlines text)) ∧
      (Forall₂ (fun stretch todo => stretch.StandsOn (unifyNewlines text) todo.line) noted
          (todos (unifyNewlines text)) ↔
        ∀ stretch ∈ noted, HasOnlyLineFeeds stretch.front) ∧
      ∀ tokens, Syntax.tokens? (unifyNewlines text) = some tokens → ∀ token ∈ tokens,
        ∃ place, place <+: unifyNewlines text ++ ['\n'] ∧
          ∀ node : Syntax.Node, node.start = token.start →
            Reported (unifyNewlines text) place node.start.line := by
  have listed := todos_eq_map (notMem_unifyNewlines text)
  generalize unifyNewlines text = source at listed
  refine ⟨(stretches isLineBreak source).filter fun stretch => isTodoLine stretch.line,
    (pairwise_stretches isLineBreak source).filter _, ?_, ?_, ?_, ?_⟩
  · intro stretch
    rw [mem_filter, mem_stretches]
  · rw [listed, forall₂_map_right_iff, forall₂_same]
    intro stretch member
    exact notedAs_noteOf (mem_stretches.mp (mem_filter.mp member).1)
  · rw [listed, forall₂_map_right_iff, forall₂_same]
    refine forall₂_congr fun stretch member => ?_
    exact (notedAs_noteOf (mem_stretches.mp (mem_filter.mp member).1)).line
  · intro tokens cut token member
    rcases Syntax.isIn_of_mem_tokens? cut member with ⟨place, inside, reached⟩
    exact ⟨place, inside, fun node begins => .node cut member begins (begins.trans reached)⟩

/-- A note on the first line of a script, behind a form feed. -/
def notedEvaluation : List Char := "\x0ceval(x) // TODO".toList

/-- The line is told in two ways. -/
theorem notedEvaluation_told_apart :
    (∀ own : Stretch, own.IsLineOf isLineFeed notedEvaluation → own.number isLineFeed = 1) ∧
      todos notedEvaluation = [⟨2, "eval(x) // TODO"⟩] ∧
      Script.suspicions notedEvaluation = [⟨"eval", 1, "eval(x) // TODO"⟩] := by
  refine ⟨?_, by decide +kernel, by decide +kernel⟩
  intro own isOwn
  rcases isOwn.reaches with ⟨rest, whole, _⟩
  have begins : own.front <+: notedEvaluation := ⟨rest, whole.symm⟩
  have fewer : own.front.countP isLineFeed ≤ notedEvaluation.countP isLineFeed :=
    begins.sublist.countP_le
  have unfed : notedEvaluation.countP isLineFeed = 0 := by decide
  rw [unfed, Nat.le_zero] at fewer
  rw [Stretch.number, fewer]

end CodeQuality
