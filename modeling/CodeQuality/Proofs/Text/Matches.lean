import CodeQuality.Text.Matcher
import Mathlib.Data.List.Infix

namespace CodeQuality

open List

namespace Text

/-!
The matches of a scanner in a text.

The matches are found in one pass, which counts characters and lines on its way and
skips what belongs to the last match.  They can be described by places in the text
alone: each match is the first one that starts behind the match before it, and behind
the last one there is none.
-/

/-- A stretch of a text that is read as something. -/
structure Span (α : Type) where
  start : Nat
  stop : Nat
  value : α

/-- The stretches that are found from a place on, when all that can be read is known. -/
inductive Finds {α : Type} (reads : Span α → Prop) : Nat → List (Span α) → Prop
  | nothing {place : Nat} (none : ∀ span, reads span → ¬ place ≤ span.start) :
      Finds reads place []
  | next {place : Nat} {span : Span α} {rest : List (Span α)} (behind : place ≤ span.start)
      (read : reads span) (first : ∀ other, reads other → place ≤ other.start →
        span.start ≤ other.start) (others : Finds reads span.stop rest) :
      Finds reads place (span :: rest)

/-- A scanner, which also sees the character before, reads a stretch of a source. -/
structure ReadAt {α : Type} (scan : Option Char → Scanner α) (source : List Char)
    (span : Span α) : Prop where
  advances : span.start < span.stop
  inside : span.stop ≤ source.length
  scanned : scan (source.take span.start).getLast? (source.drop span.start) =
    some (span.value, source.drop span.stop)

/-- What a scanner leaves is the end of the text, and it takes at least one character. -/
def Shortens {α : Type} (scan : Option Char → Scanner α) : Prop :=
  ∀ before text value left, scan before text = some (value, left) →
    left <:+ text ∧ left.length < text.length

/-- The stretch of a match. -/
def Match.span {α : Type} (found : Match α) : Span α :=
  ⟨found.offset, found.offset + found.length, found.value⟩

section

variable {α : Type}

variable {reads : Span α → Prop} {place : Nat} {spans : List (Span α)}

theorem Finds.reads_of_mem (finds : Finds reads place spans) {span : Span α}
    (member : span ∈ spans) : reads span := by
  induction finds with
  | nothing => cases member
  | next _ read _ _ ih =>
      rcases mem_cons.mp member with rfl | later
      · exact read
      · exact ih later

/-- What is found stands in order, behind the place where the search began. -/
theorem Finds.ordered (advances : ∀ span, reads span → span.start < span.stop)
    (finds : Finds reads place spans) :
    (∀ span ∈ spans, place ≤ span.start) ∧
      spans.Pairwise fun first second => first.start < second.start := by
  induction finds with
  | nothing => exact ⟨forall_mem_nil _, .nil⟩
  | next behind read _ _ ih =>
      have later := fun other member => Nat.lt_of_lt_of_le (advances _ read) (ih.1 other member)
      refine ⟨forall_mem_cons.mpr ⟨behind, fun other member => ?_⟩, .cons later ih.2⟩
      exact behind.trans (Nat.le_of_lt (later other member))

/-- Where nothing is read, it makes no difference whether a search begins there or behind. -/
theorem Finds.from_before (finds : Finds reads (place + 1) spans)
    (unread : ∀ span, reads span → span.start ≠ place) : Finds reads place spans := by
  have behind : ∀ span, reads span → place ≤ span.start → place + 1 ≤ span.start := by
    intro span read later
    exact Nat.lt_of_le_of_ne later (unread span read).symm
  cases finds with
  | nothing none =>
      refine .nothing fun span read later => ?_
      exact none span read (behind span read later)
  | next front read first others =>
      refine .next (Nat.le_of_succ_le front) read ?_ others
      intro other reading later
      exact first other reading (behind other reading later)

/-! ## The pass over the text -/

theorem lineNumberAfter_concat (front : List Char) (c : Char) :
    lineNumberAfter (front ++ [c]) =
      if c = '\n' then lineNumberAfter front + 1 else lineNumberAfter front := by
  rw [lineNumberAfter, count_append, count_singleton]
  by_cases newline : c = '\n'
  · simp [newline, lineNumberAfter]
  · simp [newline, lineNumberAfter]

/-- The matches that a pass over a text gives from one of its points on, when all before it has been
seen and some characters are to be skipped. -/
def matchesAfter (scan : Option Char → Scanner α) (front : List Char) (skip : Nat)
    (text : List Char) : List (Match α) :=
  matchesFrom scan front.length (lineNumberAfter front) skip front.getLast? text

variable {scan : Option Char → Scanner α}

theorem matchesAfter_skip (front : List Char) (skip : Nat) (c : Char) (rest : List Char) :
    matchesAfter scan front (skip + 1) (c :: rest) = matchesAfter scan (front ++ [c]) skip rest := by
  rw [matchesAfter, matchesAfter, matchesFrom, lineNumberAfter_concat, length_append,
    getLast?_concat]
  rfl

theorem matchesAfter_none {front rest : List Char} {c : Char}
    (unread : scan front.getLast? (c :: rest) = none) :
    matchesAfter scan front 0 (c :: rest) = matchesAfter scan (front ++ [c]) 0 rest := by
  rw [matchesAfter, matchesAfter, matchesFrom, lineNumberAfter_concat, length_append,
    getLast?_concat]
  simp only [unread]
  rfl

theorem matchesAfter_some {front rest left : List Char} {c : Char} {value : α}
    (read : scan front.getLast? (c :: rest) = some (value, left)) :
    matchesAfter scan front 0 (c :: rest) =
      ⟨front.length, lineNumberAfter front, c :: rest, (c :: rest).length - left.length, value⟩ ::
        matchesAfter scan (front ++ [c]) ((c :: rest).length - left.length - 1) rest := by
  rw [matchesAfter, matchesAfter, matchesFrom, lineNumberAfter_concat, length_append,
    getLast?_concat]
  simp only [read]
  rfl

/-- What is read in front of the rest of a text. -/
theorem readAt_front {front text left : List Char} {value : α} (ends : left <:+ text)
    (shorter : left.length < text.length)
    (scanned : scan front.getLast? text = some (value, left)) :
    ReadAt scan (front ++ text)
      ⟨front.length, front.length + (text.length - left.length), value⟩ where
  advances := by
    simp only
    omega
  inside := by
    rw [length_append]
    simp only
    omega
  scanned := by
    rw [take_left, drop_left, scanned, drop_length_add_append,
      ← suffix_iff_eq_drop.mp ends]

theorem finds_matchesAfter (shortens : Shortens scan) (front : List Char) (skip : Nat)
    (text : List Char) :
    Finds (ReadAt scan (front ++ text)) (front.length + skip)
      ((matchesAfter scan front skip text).map Match.span) := by
  induction text generalizing front skip with
  | nil =>
      refine .nothing fun span read later => ?_
      have ends := read.advances
      have inside := read.inside
      rw [append_nil] at inside
      omega
  | cons c rest ih =>
      have whole : front ++ c :: rest = front ++ [c] ++ rest := by
        rw [append_assoc, singleton_append]
      have length : (front ++ [c]).length = front.length + 1 := length_append
      cases skip with
      | succ skip =>
          have others := ih (front ++ [c]) skip
          rw [← whole, length, Nat.add_assoc, Nat.add_comm 1 skip] at others
          rw [matchesAfter_skip]
          exact others
      | zero =>
          cases scanned : scan front.getLast? (c :: rest) with
          | none =>
              have others := ih (front ++ [c]) 0
              rw [← whole, length] at others
              rw [matchesAfter_none scanned]
              apply others.from_before
              intro span read here
              have reading := read.scanned
              rw [here, take_left, drop_left, scanned] at reading
              cases reading
          | some result =>
              rcases result with ⟨value, left⟩
              rcases shortens _ _ _ _ scanned with ⟨ends, shorter⟩
              rw [matchesAfter_some scanned]
              have others := ih (front ++ [c]) ((c :: rest).length - left.length - 1)
              have stop : front.length + 1 + ((c :: rest).length - left.length - 1) =
                  front.length + ((c :: rest).length - left.length) := by omega
              rw [← whole, length, stop] at others
              exact .next (Nat.le_refl _) (readAt_front ends shorter scanned)
                (fun _ _ later => later) others

/-- Where a match stands is where it says. -/
theorem placed_of_mem_matchesAfter {found : Match α} {front : List Char} {skip : Nat}
    {text : List Char} (member : found ∈ matchesAfter scan front skip text) :
    found.text = (front ++ text).drop found.offset ∧
      found.line = lineNumberAfter ((front ++ text).take found.offset) := by
  induction text generalizing front skip with
  | nil => cases member
  | cons c rest ih =>
      have later : ∀ skip, found ∈ matchesAfter scan (front ++ [c]) skip rest →
          found.text = (front ++ c :: rest).drop found.offset ∧
            found.line = lineNumberAfter ((front ++ c :: rest).take found.offset) := by
        intro skip inside
        have placed := ih inside
        rw [append_assoc, singleton_append] at placed
        exact placed
      cases skip with
      | succ skip =>
          rw [matchesAfter_skip] at member
          exact later skip member
      | zero =>
          cases scanned : scan front.getLast? (c :: rest) with
          | none =>
              rw [matchesAfter_none scanned] at member
              exact later 0 member
          | some result =>
              rw [matchesAfter_some scanned] at member
              rcases mem_cons.mp member with rfl | inside
              · exact ⟨drop_left.symm, congrArg lineNumberAfter take_left.symm⟩
              · exact later _ inside

/-! ## All matches -/

theorem finds_findMatches (shortens : Shortens scan) (source : List Char) :
    Finds (ReadAt scan source) 0 ((findMatches scan source).map Match.span) :=
  finds_matchesAfter shortens [] 0 source

theorem placed_of_mem_findMatches {found : Match α} {source : List Char}
    (member : found ∈ findMatches scan source) :
    found.text = source.drop found.offset ∧
      found.line = lineNumberAfter (source.take found.offset) :=
  @placed_of_mem_matchesAfter α scan found [] 0 source member

end

end Text
end CodeQuality
