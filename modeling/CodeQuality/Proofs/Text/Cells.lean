import CodeQuality.Proofs.Text.Padding
import CodeQuality.Proofs.Text.Pieces

namespace CodeQuality

open List

namespace Text

/-!
Cells of a line, and pieces between marks in general.

A line can be cut at a mark wherever it stands, and what was joined with marks is got
back only if no piece holds one.  A row is a line with bars around its cells and spaces
around their texts.  To read it is to cut it at its bars and to trim the pieces, so a
text can be read back from a cell if and only if it holds neither a bar nor a line end
and is not blank at either end.
-/

/-! ## Pieces between marks -/

section

variable {α : Type} [BEq α] [LawfulBEq α] {mark : α}

/-- A piece between marks is a part of the text without a mark. -/
theorem of_mem_splitOn {text piece : List α} (member : piece ∈ text.splitOn mark) :
    mark ∉ piece ∧ piece ⊆ text := by
  rw [splitOn] at member
  induction text generalizing piece with
  | nil =>
      rw [splitOnP_nil, mem_singleton] at member
      rw [member]
      exact ⟨not_mem_nil, Subset.refl _⟩
  | cons c rest ih =>
      rw [splitOnP_cons_eq_if_modifyHead] at member
      by_cases same : (c == mark) = true
      · rw [if_pos same] at member
        rcases mem_cons.mp member with rfl | later
        · exact ⟨not_mem_nil, nil_subset _⟩
        · exact ⟨(ih later).1, subset_cons_of_subset c (ih later).2⟩
      · rw [if_neg same] at member
        rcases exists_cons_of_ne_nil (splitOnP_ne_nil (· == mark) rest) with
          ⟨first, others, pieces⟩
        rw [pieces] at ih member
        rcases mem_cons.mp member with rfl | later
        · have tail := ih mem_cons_self
          rw [mem_cons, not_or]
          exact ⟨⟨fun equal => same (beq_iff_eq.mpr equal.symm), tail.1⟩,
            cons_subset_cons c tail.2⟩
        · have tail := ih (mem_cons_of_mem _ later)
          exact ⟨tail.1, subset_cons_of_subset c tail.2⟩

theorem splitOn_append_cons (front back : List α) :
    (front ++ mark :: back).splitOn mark = front.splitOn mark ++ back.splitOn mark :=
  splitOnP_append_cons front back (beq_self_eq_true mark)

/-- Pieces that are joined by marks and cut at marks are cut one by one. -/
theorem splitOn_intercalate_eq_flatMap {pieces : List (List α)} (present : pieces ≠ []) :
    ([mark].intercalate pieces).splitOn mark = pieces.flatMap (splitOn mark) := by
  induction pieces with
  | nil => exact absurd rfl present
  | cons piece rest ih =>
      cases rest with
      | nil => simp
      | cons next others =>
          rw [intercalate_cons_cons, flatMap_cons, ← ih (cons_ne_nil _ _),
            append_assoc]
          exact splitOn_append_cons piece _

end

/-! ## Cells -/

/-- A text without a bar and without a line end. -/
def Unmarked (text : List Char) : Prop := '|' ∉ text ∧ '\n' ∉ text

/-- A text with no blank in front. -/
def OpensClear (text : List Char) : Prop := ∀ c ∈ text.head?, isBlank c = false

/-- A text with no blank at its end. -/
def ClosesClear (text : List Char) : Prop := ∀ c ∈ text.getLast?, isBlank c = false

/-- A text that can be read back from a cell. -/
def IsCell (text : List Char) : Prop := Unmarked text ∧ OpensClear text ∧ ClosesClear text

instance : DecidablePred Unmarked := fun _ => inferInstanceAs (Decidable (_ ∧ _))

instance : DecidablePred OpensClear := fun text => text.head?.decidableForallMem

instance : DecidablePred ClosesClear := fun text => text.getLast?.decidableForallMem

instance : DecidablePred IsCell := fun _ => inferInstanceAs (Decidable (_ ∧ _ ∧ _))

variable {front back text : List Char} {cells : List (List Char)}

theorem unmarked_append : Unmarked (front ++ back) ↔ Unmarked front ∧ Unmarked back := by
  simp only [Unmarked, mem_append, not_or]
  exact and_and_and_comm

theorem isCell_of_forall (clear : ∀ c ∈ text, c ≠ '|' ∧ isBlank c = false) : IsCell text := by
  refine ⟨⟨fun bar => (clear _ bar).1 rfl, fun ending => ?_⟩, ?_, ?_⟩
  · exact Bool.false_ne_true ((clear _ ending).2.symm.trans (by decide))
  · exact fun c first => (clear c (mem_of_mem_head? first)).2
  · exact fun c last => (clear c (mem_of_mem_getLast? last)).2

theorem clear_numeral (n : Nat) : ∀ c ∈ (toString n).toList, c ≠ '|' ∧ isBlank c = false := by
  intro c member
  have digit : c.isDigit = true := by
    by_contra other
    exact notMem_numeral (Bool.eq_false_iff.mpr other) n member
  have bounds : 48 ≤ c.toNat ∧ c.toNat ≤ 57 := by
    simpa [Char.isDigit, UInt32.le_iff_toNat_le] using digit
  constructor
  · rintro rfl
    exact absurd digit (by decide)
  · simp only [isBlank, Bool.or_eq_false_iff, Bool.and_eq_false_iff, decide_eq_false_iff_not,
      beq_eq_false_iff_ne]
    omega

theorem isCell_append (opened : front ≠ []) (closed : back ≠ []) :
    IsCell (front ++ back) ↔
      (Unmarked front ∧ OpensClear front) ∧ Unmarked back ∧ ClosesClear back := by
  rw [IsCell, unmarked_append, OpensClear, head?_append_of_ne_nil _ opened, ClosesClear,
    getLast?_append_of_ne_nil _ closed]
  exact and_and_and_comm

/-- A fixed text is checked letter by letter. -/
theorem isCell_literal {letters : List Char} (cell : IsCell letters) :
    IsCell (String.ofList letters).toList := by
  rw [String.toList_ofList]
  exact cell

/-- Between two fixed texts anything can stand that is without marks. -/
theorem isCell_enclosed (first : Unmarked front ∧ OpensClear front ∧ front ≠ [])
    (last : Unmarked back ∧ ClosesClear back ∧ back ≠ []) {inner : List Char}
    (unmarked : Unmarked inner) :
    IsCell ((String.ofList front).toList ++ inner ++ (String.ofList back).toList) := by
  rw [String.toList_ofList, String.toList_ofList,
    isCell_append (append_ne_nil_of_left_ne_nil first.2.2 inner) last.2.2, unmarked_append,
    OpensClear, head?_append_of_ne_nil _ first.2.2]
  exact ⟨⟨⟨first.1, unmarked⟩, first.2.1⟩, last.1, last.2.1⟩

/-- The text of a cell with the space around it. -/
def spaced (text : List Char) : List Char := ' ' :: text ++ [' ']

theorem trim_spaced (cell : IsCell text) : trim (spaced text) = text := by
  have blank : ∀ c ∈ [' '], isBlank c = true := forall_mem_singleton.mpr (by decide)
  have pads : Pads (spaced text) text := ⟨[' '], [' '], blank, blank, rfl⟩
  rw [pads.trim_eq, trim_eq_self cell.2.1 cell.2.2]

theorem bar_notMem_spaced (cell : IsCell text) : '|' ∉ spaced text := by
  simp [spaced, cell.1.1]

/-- A line reads as a row: it is cut at its bars, of which one stands at either end, and the pieces
between them are trimmed. -/
def IsRow (line : List Char) (cells : List (List Char)) : Prop :=
  ∃ pieces, line.splitOn '|' = [] :: pieces ++ [[]] ∧ pieces.map trim = cells

/-- What is read from a line are texts that can be read from cells. -/
theorem IsRow.isCell {line : List Char} (reads : IsRow line cells) (oneLine : '\n' ∉ line)
    {cell : List Char} (member : cell ∈ cells) : IsCell cell := by
  rcases reads with ⟨pieces, cut, rfl⟩
  rcases mem_map.mp member with ⟨piece, listed, rfl⟩
  have between : piece ∈ line.splitOn '|' := by
    rw [cut]
    exact mem_cons_of_mem _ (mem_append_left _ listed)
  have part := of_mem_splitOn between
  have inside := (trim_isInfix piece).subset
  exact ⟨⟨fun bar => part.1 (inside bar), fun ending => oneLine (part.2 (inside ending))⟩,
    fun _ => isBlank_of_head?_trim, fun _ => isBlank_of_getLast?_trim⟩

/-- The line with bars around given cells. -/
def rowLine (cells : List (List Char)) : List Char :=
  '|' :: cells.flatMap fun cell => spaced cell ++ ['|']

theorem newline_notMem_rowLine (fit : ∀ cell ∈ cells, IsCell cell) : '\n' ∉ rowLine cells := by
  intro ending
  rcases mem_cons.mp ending with impossible | below
  · cases impossible
  · rcases mem_flatMap.mp below with ⟨cell, listed, inside⟩
    simp [spaced, (fit cell listed).1.2] at inside

theorem splitOn_rowLine (fit : ∀ cell ∈ cells, IsCell cell) :
    (rowLine cells).splitOn '|' = [] :: cells.map spaced ++ [[]] := by
  have below : ((cells.flatMap fun cell => spaced cell ++ ['|']).splitOn '|') =
      cells.map spaced ++ [[]] := by
    induction cells with
    | nil => rfl
    | cons cell rest ih =>
        have own := splitOn_eq_singleton (bar_notMem_spaced (fit cell mem_cons_self))
        rw [flatMap_cons, append_assoc, singleton_append, splitOn_append_cons, own,
          ih fun other later => fit other (mem_cons_of_mem _ later)]
        rfl
  rw [rowLine, ← nil_append ('|' :: _), splitOn_append_cons, below]
  rfl

theorem isRow_rowLine (fit : ∀ cell ∈ cells, IsCell cell) : IsRow (rowLine cells) cells := by
  refine ⟨cells.map spaced, splitOn_rowLine fit, ?_⟩
  rw [map_map]
  refine (map_congr_left fun cell inside => ?_).trans (map_id _)
  exact trim_spaced (fit cell inside)

end Text
end CodeQuality
