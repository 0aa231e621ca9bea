import CodeQuality.Proofs.Outcome
import CodeQuality.Proofs.Text.Classes
import CodeQuality.Proofs.Text.Matches
import CodeQuality.Proofs.Text.Patterns
import CodeQuality.Proofs.Text.Stretches
import CodeQuality.Script.Suspicion

namespace CodeQuality
namespace Script

open Text List

/-!
Suspicious constructs as they are shown.

A construct is shown by the first line of what stands where it was found.  It may go on behind
the end of a line, but it never begins with a line break, so there always is such a line, and it
is not empty.  Main result: looking for constructs does not fail, and those of one kind are shown
one by one in the order in which they stand in the text.
-/

/-- A stretch of a source is shown as a suspicious construct of a kind. -/
structure Shows (source : List Char) (kind : String) (span : Span Unit)
    (suspicion : Survey.Suspicion) : Prop where
  kind : suspicion.kind = kind
  line : suspicion.line = 1 + (source.take span.start).count '\n'
  present : suspicion.snippet.toList ≠ []
  begins : suspicion.snippet.toList <+: source.drop span.start
  short : suspicion.snippet.toList.length ≤ 200
  unbroken : ∀ c ∈ suspicion.snippet.toList, isLineBreak c = false
  /-- It is cut for no other reason. -/
  reaches : suspicion.snippet.toList =
    (((source.drop span.start).take (span.stop - span.start + 80)).takeWhile
      fun c => !isLineBreak c).take 200

/-- The constructs of one kind are shown. -/
structure ShownInOrder (source : List Char) (construct : String × (Option Char → Scanner Unit))
    (shown : List Survey.Suspicion) : Prop where
  /-- They are all that is found, one by one, at later and later places. -/
  found : ∃ spans, Finds (ReadAt construct.2 source) 0 spans ∧
    spans.Pairwise (fun first second => first.start < second.start) ∧
    Forall₂ (Shows source construct.1) spans shown
  lines : shown.Pairwise fun first second => first.line ≤ second.line

/-- The text that a construct is shown from. -/
def window (found : Match Unit) : List Char := found.text.take (found.length + snippetMargin)

/-- The suspicious construct of a match, or a fault if there is no line to show. -/
def showMatch (kind : String) (found : Match Unit) : Outcome Survey.Suspicion :=
  (lines (window found)).head?.elim (.error .outOfRange) fun line =>
    .ok ⟨kind, found.line, String.ofList (line.take snippetWidth)⟩

/-- The suspicious constructs of a source text, or the first fault in showing them. -/
def showConstructs (source : List Char) : Outcome (List Survey.Suspicion) := do
  let shown ← constructs.mapM fun construct =>
    (findMatches construct.2 source).mapM (showMatch construct.1)
  pure shown.flatten

/-! ## What a construct begins with -/

/-- A text begins with no line break, and a shorter end of it is left. -/
def OpensInLine (text left : List Char) : Prop :=
  ∃ c rest, text = c :: rest ∧ isLineBreak c = false ∧ left <:+ rest

theorem OpensInLine.trans {text left other : List Char} (opens : OpensInLine text left)
    (ends : other <:+ left) : OpensInLine text other := by
  rcases opens with ⟨c, rest, split, inside, more⟩
  exact ⟨c, rest, split, inside, ends.trans more⟩

theorem opensInLine_of_afterAnyCase? {letter : Char} {word text left : List Char}
    (clear : isLineBreak letter = false) (found : afterAnyCase? (letter :: word) text = some left) :
    OpensInLine text left := by
  cases text with
  | nil => cases found
  | cons c rest =>
      rw [afterAnyCase?, Option.ite_none_right_eq_some] at found
      exact ⟨c, rest, rfl, isLineBreak_of_isLetter clear found.1, suffix_of_afterAnyCase? found.2⟩

theorem suffix_of_afterBracket? {text left : List Char} (found : afterBracket? text = some left) :
    left <:+ text := by
  have split := after?_eq_some_iff.mp found
  exact (suffix_append ['('] left).trans (split ▸ dropWhile_suffix isBlank)

/-- No construct begins with a line break. -/
theorem opensInLine_of_scan : ∀ construct ∈ constructs, ∀ before text left,
    construct.2 before text = some ((), left) → OpensInLine text left := by
  simp only [constructs, forall_mem_cons, evaluation, functionConstructor, innerMarkup,
    documentWrite, Option.bind_eq_bind, Option.bind_eq_some_iff, Option.ite_none_left_eq_some,
    Option.pure_def, Option.some.injEq, Prod.mk.injEq]
  refine ⟨?_, ?_, ?_, ?_, forall_mem_nil _⟩
  · rintro before text _ ⟨_, rest, word, left, bracket, _, rfl⟩
    exact (opensInLine_of_afterAnyCase? (by decide) word).trans (suffix_of_afterBracket? bracket)
  · rintro before text _ ⟨rest, word, more, blanks, last, second, left, bracket, _, rfl⟩
    have behind := (suffix_of_afterAnyCase? second).trans (suffix_of_afterBlanks? blanks)
    exact (opensInLine_of_afterAnyCase? (by decide) word).trans
      ((suffix_of_afterBracket? bracket).trans behind)
  · rintro before text _ ⟨rest, dot, left, word, _, _, rfl⟩
    exact ⟨'.', rest, after?_eq_some_iff.mp dot, by decide, suffix_of_afterAnyCase? word⟩
  · rintro before text _ ⟨rest, word, more, dot, last, second, left, bracket, _, rfl⟩
    have dotted : more <:+ rest := after?_eq_some_iff.mp dot ▸ suffix_append ['.'] more
    exact (opensInLine_of_afterAnyCase? (by decide) word).trans
      ((suffix_of_afterBracket? bracket).trans ((suffix_of_afterAnyCase? second).trans dotted))

/-! ## What is shown -/

/-- The suspicious construct of a match. -/
def suspicionOf (kind : String) (found : Match Unit) : Survey.Suspicion :=
  ⟨kind, found.line, String.ofList (snippet found)⟩

section

variable {source : List Char} {found : Match Unit}
  {construct : String × (Option Char → Scanner Unit)}

theorem snippet_eq (present : window found ≠ []) :
    snippet found = ((window found).takeWhile fun c => !isLineBreak c).take snippetWidth := by
  rw [snippet, ← window, headD_eq_head?_getD, head?_lines present]
  rfl

theorem showMatch_eq_ok (present : window found ≠ []) (kind : String) :
    showMatch kind found = .ok (suspicionOf kind found) := by
  rw [showMatch, suspicionOf, snippet_eq present, head?_lines present]
  rfl

theorem shortens_of_mem (listed : construct ∈ constructs) : Shortens construct.2 := by
  intro before text _ left read
  rcases opensInLine_of_scan construct listed before text left read with ⟨c, rest, rfl, _, ends⟩
  exact ⟨ends.trans (suffix_cons c rest), Nat.lt_succ_of_le ends.length_le⟩

theorem exists_window (listed : construct ∈ constructs)
    (member : found ∈ findMatches construct.2 source) :
    ∃ c rest, window found = c :: rest ∧ isLineBreak c = false := by
  have read := (finds_findMatches (shortens_of_mem listed) source).reads_of_mem
    (mem_map_of_mem member)
  rcases opensInLine_of_scan construct listed _ _ _ read.scanned with ⟨c, rest, split, inside, _⟩
  have text : found.text = c :: rest := (placed_of_mem_findMatches member).1.trans split
  -- The margin alone makes room for the first character.
  refine ⟨c, rest.take (found.length + 79), ?_, inside⟩
  rw [window, text]
  rfl

theorem shows_suspicionOf (listed : construct ∈ constructs)
    (member : found ∈ findMatches construct.2 source) :
    Shows source construct.1 found.span (suspicionOf construct.1 found) := by
  rcases placed_of_mem_findMatches member with ⟨text, line⟩
  rcases exists_window listed member with ⟨c, rest, split, inside⟩
  have spelled : (suspicionOf construct.1 found).snippet.toList =
      ((window found).takeWhile fun c => !isLineBreak c).take snippetWidth :=
    String.toList_ofList.trans (snippet_eq (split ▸ cons_ne_nil c rest))
  have width : found.span.stop - found.span.start = found.length := Nat.add_sub_cancel_left _ _
  refine ⟨rfl, line.trans (Nat.add_comm _ _), ?_, ?_, ?_, ?_, ?_⟩
  · rw [spelled, split, takeWhile_cons_of_pos (by simp [inside])]
    exact cons_ne_nil _ _
  · rw [spelled]
    refine (List.take_prefix _ _).trans ((List.takeWhile_prefix _).trans ?_)
    exact text ▸ take_prefix _ _
  · rw [spelled]
    exact length_take_le _ _
  · intro d shown
    rw [spelled] at shown
    simpa using mem_takeWhile_imp (mem_of_mem_take shown)
  · rw [spelled, window, text, width]
    rfl

theorem shownInOrder (listed : construct ∈ constructs) (source : List Char) :
    ShownInOrder source construct
      ((findMatches construct.2 source).map (suspicionOf construct.1)) := by
  have finds := finds_findMatches (shortens_of_mem listed) source
  have ordered := (finds.ordered fun _ read => read.advances).2
  refine ⟨⟨_, finds, ordered, ?_⟩, ?_⟩
  · rw [forall₂_map_left_iff, forall₂_map_right_iff, forall₂_same]
    exact fun found member => shows_suspicionOf listed member
  · -- Before a later place there are at least as many line feeds.
    rw [pairwise_map] at ordered ⊢
    refine ordered.imp_of_mem fun {first second} firstIn secondIn sooner => ?_
    have fewer : (source.take first.offset).count '\n' ≤ (source.take second.offset).count '\n' :=
      (take_prefix_take_left (Nat.le_of_lt sooner)).sublist.count_le _
    rw [suspicionOf, suspicionOf, (placed_of_mem_findMatches firstIn).2,
      (placed_of_mem_findMatches secondIn).2]
    exact Nat.succ_le_succ fewer

end

/-- Looking for suspicious constructs gives a result for every text: all that is found, kind by
kind, each with its line and with a part of the text that begins with it. -/
theorem constructs_are_shown_in_order (source : List Char) :
    showConstructs source = .ok (suspicions source) ∧
      ∃ shown : List (List Survey.Suspicion), suspicions source = shown.flatten ∧
        Forall₂ (ShownInOrder source) constructs shown := by
  constructor
  · have each : ∀ construct ∈ constructs, (findMatches construct.2 source).mapM
        (showMatch construct.1) =
          .ok ((findMatches construct.2 source).map (suspicionOf construct.1)) := by
      intro construct listed
      refine Outcome.mapM_eq_ok fun found member => ?_
      rcases exists_window listed member with ⟨c, rest, split, _⟩
      exact showMatch_eq_ok (split ▸ cons_ne_nil c rest) _
    rw [showConstructs, Outcome.mapM_eq_ok each]
    rfl
  · refine ⟨constructs.map fun construct =>
      (findMatches construct.2 source).map (suspicionOf construct.1), rfl, ?_⟩
    rw [forall₂_map_right_iff, forall₂_same]
    exact fun construct listed => shownInOrder listed source

end Script
end CodeQuality
