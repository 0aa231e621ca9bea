import CodeQuality.Proofs.Text.Pieces
import CodeQuality.Text.Chunk
import Mathlib.Data.Rat.Floor
import Mathlib.Tactic.Linarith

namespace CodeQuality

open List

namespace Text

/-!
Overlapping pieces, and when the cutting comes to an end.

The cutting is described once more without a bound on the number of its turns.  A turn
moves the start forward by the width less the overlap, as long as the end of the text
is not reached.  So the sign of that difference decides: with a positive one every turn
comes closer to the end, with any other one no turn ever gets past the first piece.

Where the cutting ends, the bound that the pieces are computed with is large enough,
and the pieces are windows on the text at equal distances.
-/

/-- Where the turn after one that starts at a position starts. -/
def nextStart (length : Nat) (width start : Int) : Int := pieceEnd length width start - overlap

/-- Whether the turn that starts at a position is the last one: it starts behind the text, or its
piece reaches the end of the text. -/
def IsLastTurn (length : Nat) (width start : Int) : Prop :=
  (length : Int) ≤ start ∨ pieceEnd length width start = length

/-- The pieces that are cut from a position on, with as many turns as it takes. -/
inductive CutFrom (text : List Char) (width : Int) : Int → List (List Char) → Prop
  | behind {start : Int} (past : (text.length : Int) ≤ start) : CutFrom text width start []
  | last {start : Int} (inside : start < text.length)
      (reached : pieceEnd text.length width start = text.length) :
      CutFrom text width start [slice text start (pieceEnd text.length width start)]
  | more {start : Int} {pieces : List (List Char)} (inside : start < text.length)
      (short : pieceEnd text.length width start ≠ text.length)
      (rest : CutFrom text width (nextStart text.length width start) pieces) :
      CutFrom text width start (slice text start (pieceEnd text.length width start) :: pieces)

/-- The pieces cover a text, and neighbours have a number of characters in common. -/
structure Covers (common : Nat) (text : List Char) (width : Int) (pieces : List (List Char)) :
    Prop where
  bounded : ∀ piece ∈ pieces, piece ≠ [] ∧ (piece.length : Int) ≤ width
  placed : ∀ (i : Nat) piece, pieces[i]? = some piece →
    piece = slice text (i * (width - common)) (i * (width - common) + width)
  full : ∀ piece ∈ pieces.dropLast, (piece.length : Int) = width
  shared : ∀ i first second, pieces[i]? = some first → pieces[i + 1]? = some second →
    ∃ before both after, first = before ++ both ∧ second = both ++ after ∧ both.length = common
  joined : ∃ first later, pieces = first :: later ∧
    first ++ later.flatMap (drop common) = text
  counted : (pieces.length : Int) =
    if (text.length : Int) ≤ width then 1
    else 1 + ⌈((text.length : ℚ) - width) / (width - common)⌉

/-! ## The bound -/

variable {text : List Char} {width start : Int} {pieces : List (List Char)}

theorem cutFrom_of_piecesWithin {bound : Nat}
    (computed : piecesWithin text width bound start = some pieces) :
    CutFrom text width start pieces := by
  induction bound generalizing start pieces with
  | zero => cases computed
  | succ bound ih =>
      rw [piecesWithin] at computed
      by_cases inside : start < text.length
      · by_cases reached : pieceEnd text.length width start = text.length
        · simp only [inside, reached, if_true, Option.some.injEq] at computed
          rw [← computed, ← reached]
          exact .last inside reached
        · simp only [inside, reached, if_true, if_false, Option.map_eq_some_iff] at computed
          rcases computed with ⟨later, cut, rfl⟩
          exact .more inside reached (ih cut)
      · simp only [inside, if_false, Option.some.injEq] at computed
        rw [← computed]
        exact .behind (by omega)

/-- A bound is large enough if it exceeds the number of the pieces. -/
theorem CutFrom.piecesWithin_eq (cut : CutFrom text width start pieces) {bound : Nat}
    (enough : pieces.length < bound) : piecesWithin text width bound start = some pieces := by
  induction cut generalizing bound with
  | behind past =>
      cases bound with
      | zero => cases enough
      | succ bound => rw [piecesWithin, if_neg (by omega)]
  | last inside reached =>
      cases bound with
      | zero => cases enough
      | succ bound => rw [piecesWithin, if_pos inside, if_pos reached]
  | more inside short rest ih =>
      cases bound with
      | zero => cases enough
      | succ bound =>
          have computed := ih (Nat.lt_of_succ_lt_succ enough)
          rw [nextStart] at computed
          simp only [piecesWithin, inside, short, computed, if_true, if_false, Option.map_some]

/-! ## When the cutting ends -/

/-- What makes the cutting end: there is no text, one piece holds all of it, or a turn makes
progress. -/
def Ends (text : List Char) (width : Int) : Prop :=
  text = [] ∨ (text.length : Int) ≤ width ∨ (overlap : Int) < width

/-- Where the end is not reached, a turn moves by the width less the overlap. -/
theorem nextStart_of_short {length : Nat} (short : pieceEnd length width start ≠ length) :
    start + width < length ∧ nextStart length width start = start + width - overlap := by
  rw [nextStart]
  rw [pieceEnd] at short ⊢
  omega

/-- With a width that the overlap uses up, the start does not get beyond the first one, and no turn
is the last. -/
theorem stuck_step (stuck : ¬ Ends text width) (front : start ≤ 0) :
    ¬ IsLastTurn text.length width start ∧ nextStart text.length width start ≤ 0 := by
  rw [Ends, not_or, not_or, ← length_eq_zero_iff] at stuck
  rw [IsLastTurn, nextStart, pieceEnd]
  omega

theorem stuck_iterate (stuck : ¬ Ends text width) (turn : Nat) :
    (nextStart text.length width)^[turn] 0 ≤ 0 := by
  induction turn with
  | zero => exact Int.le_refl 0
  | succ turn ih =>
      rw [Function.iterate_succ_apply']
      exact (stuck_step stuck ih).2

theorem CutFrom.exists_lastTurn (cut : CutFrom text width start pieces) :
    ∃ turn, IsLastTurn text.length width ((nextStart text.length width)^[turn] start) := by
  induction cut with
  | behind past => exact ⟨0, Or.inl past⟩
  | last inside reached => exact ⟨0, Or.inr reached⟩
  | more inside short rest ih =>
      rcases ih with ⟨turn, stops⟩
      exact ⟨turn + 1, stops⟩

theorem ends_of_lastTurn {turn : Nat}
    (stops : IsLastTurn text.length width ((nextStart text.length width)^[turn] 0)) :
    Ends text width := by
  by_contra stuck
  exact (stuck_step stuck (stuck_iterate stuck turn)).1 stops

/-- Progress brings the cutting to its end: fewer characters are left with every turn. -/
theorem exists_cutFrom_of_progress (wide : (overlap : Int) < width) (text : List Char)
    (start : Int) :
    ∃ pieces, CutFrom text width start pieces ∧
      (pieces.length : Int) ≤ max 0 (text.length - start) := by
  by_cases inside : start < text.length
  · by_cases reached : pieceEnd text.length width start = text.length
    · refine ⟨_, .last inside reached, ?_⟩
      rw [length_singleton]
      omega
    · have moved := nextStart_of_short reached
      rcases exists_cutFrom_of_progress wide text (nextStart text.length width start)
        with ⟨pieces, cut, few⟩
      refine ⟨_, .more inside reached cut, ?_⟩
      rw [length_cons]
      omega
  · exact ⟨[], .behind (by omega), by rw [length_nil]; omega⟩
termination_by (text.length - start).toNat
decreasing_by
  omega

/-- Where the cutting ends, there are no more pieces than characters. -/
theorem Ends.exists_cutFrom (ends : Ends text width) :
    ∃ pieces, CutFrom text width 0 pieces ∧ pieces.length ≤ text.length := by
  rcases ends with empty | whole | wide
  · subst empty
    exact ⟨[], .behind (Int.le_refl 0), Nat.le_refl 0⟩
  · by_cases empty : text.length = 0
    · refine ⟨[], .behind ?_, Nat.zero_le _⟩
      omega
    · have reached : pieceEnd text.length width 0 = text.length := by
        rw [pieceEnd]
        omega
      refine ⟨_, .last ?_ reached, ?_⟩
      · omega
      · rw [length_singleton]
        omega
  · rcases exists_cutFrom_of_progress wide text 0 with ⟨pieces, cut, few⟩
    exact ⟨pieces, cut, by omega⟩

theorem CutFrom.unique {others : List (List Char)} (cut : CutFrom text width start pieces)
    (again : CutFrom text width start others) : pieces = others := by
  have enough : pieces.length < pieces.length + others.length + 1 := by omega
  have again_enough : others.length < pieces.length + others.length + 1 := by omega
  exact Option.some.inj
    ((cut.piecesWithin_eq enough).symm.trans (again.piecesWithin_eq again_enough))

/-- The pieces that a text has are the ones that are cut from its front without a bound. -/
theorem chunks?_eq_some_iff : chunks? text width = some pieces ↔ CutFrom text width 0 pieces := by
  have bounded : chunks? text width = piecesWithin text width (text.length + 1) 0 := by
    cases text <;> rfl
  rw [bounded]
  refine ⟨cutFrom_of_piecesWithin, ?_⟩
  intro cut
  rcases cut.exists_lastTurn with ⟨turn, stops⟩
  rcases (ends_of_lastTurn stops).exists_cutFrom with ⟨others, again, few⟩
  rw [cut.unique again]
  exact again.piecesWithin_eq (Nat.lt_succ_of_le few)

/-! ## Windows -/

/-- The pieces are windows on a text from a position on, and they reach its end. -/
structure AreWindows (text : List Char) (width start : Nat) (pieces : List (List Char)) : Prop where
  placed : ∀ (i : Nat) piece, pieces[i]? = some piece →
    piece = (text.drop (start + i * (width - overlap))).take width
  followed : ∀ i, i + 1 < pieces.length ↔ start + i * (width - overlap) + width < text.length
  joined : ∃ first later, pieces = first :: later ∧
    first ++ later.flatMap (drop overlap) = text.drop start

/-- The piece at a position of the text is a window that the end of the text may cut off. -/
theorem slice_pieceEnd (text : List Char) (width start : Nat) :
    slice text start (pieceEnd text.length width start) = (text.drop start).take width := by
  have same : slice text start (pieceEnd text.length width start) =
      slice text start (start + width) := by
    have clipped : clamp text.length (pieceEnd text.length width start) =
        clamp text.length (start + width) := by
      rw [clamp, clamp, pieceEnd, if_neg (by omega), if_neg (by omega)]
      omega
    rw [slice, slice, clipped]
  rw [same, slice_natCast]

theorem areWindows_singleton {width start : Nat} (reached : text.length ≤ start + width) :
    AreWindows text width start [(text.drop start).take width] where
  placed := by
    intro i piece found
    cases i with
    | zero =>
        rw [Nat.zero_mul, Nat.add_zero]
        exact (Option.some.inj found).symm
    | succ i => cases found
  followed := by
    intro i
    rw [length_singleton]
    omega
  joined := by
    refine ⟨_, [], rfl, ?_⟩
    rw [flatMap_nil, append_nil]
    apply take_of_length_le
    rw [length_drop]
    omega

/-- A window that does not reach the end of the text stands before the windows that start where it
has the overlap left. -/
theorem AreWindows.cons {text : List Char} {width start : Nat} {pieces : List (List Char)}
    (wide : overlap < width) (short : start + width < text.length)
    (rest : AreWindows text width (start + (width - overlap)) pieces) :
    AreWindows text width start ((text.drop start).take width :: pieces) := by
  have shift : ∀ i, start + (i + 1) * (width - overlap) =
      start + (width - overlap) + i * (width - overlap) := by
    intro i
    rw [Nat.succ_mul]
    omega
  rcases rest.joined with ⟨first, later, rfl, joined⟩
  have long : overlap ≤ first.length := by
    rw [rest.placed 0 first rfl, length_take, length_drop]
    omega
  refine ⟨?_, ?_, _, _, rfl, ?_⟩
  · intro i piece found
    cases i with
    | zero =>
        rw [Nat.zero_mul, Nat.add_zero]
        exact (Option.some.inj found).symm
    | succ i =>
        rw [shift]
        exact rest.placed i piece found
  · intro i
    cases i with
    | zero =>
        rw [length_cons, length_cons]
        omega
    | succ i =>
        rw [shift, ← rest.followed i, length_cons, Nat.add_lt_add_iff_right]
  · have behind : first.drop overlap ++ later.flatMap (drop overlap) =
        (text.drop start).drop width := by
      rw [← drop_append_of_le_length long, joined, drop_drop, drop_drop]
      congr 1
      omega
    rw [flatMap_cons, behind, take_append_drop]

theorem CutFrom.areWindows {width : Nat} (wide : overlap < width) {position : Int}
    (cut : CutFrom text width position pieces) {start : Nat} (here : position = start)
    (inside : start < text.length) : AreWindows text width start pieces := by
  induction cut generalizing start with
  | behind past => omega
  | last within reached =>
      subst here
      rw [slice_pieceEnd]
      apply areWindows_singleton
      rw [pieceEnd] at reached
      omega
  | more within short rest ih =>
      subst here
      rw [slice_pieceEnd]
      have moved := nextStart_of_short short
      apply AreWindows.cons wide
      · omega
      · apply ih
        · rw [moved.2]
          omega
        · omega

/-! ## What windows cover -/

section Windows

variable {width : Nat}

/-- Every window but the last one is full. -/
theorem AreWindows.length_of_followed (windows : AreWindows text width 0 pieces) {i : Nat}
    {piece : List Char} (found : pieces[i]? = some piece) (followed : i + 1 < pieces.length) :
    piece.length = width := by
  have short := (windows.followed i).mp followed
  rw [windows.placed i piece found, length_take, length_drop]
  omega

theorem AreWindows.ne_nil (windows : AreWindows text width 0 pieces) (wide : overlap < width)
    (present : text ≠ []) {i : Nat} {piece : List Char} (found : pieces[i]? = some piece) :
    piece ≠ [] := by
  have inside : i * (width - overlap) < text.length := by
    cases i with
    | zero =>
        rw [Nat.zero_mul]
        exact length_pos_iff.mpr present
    | succ i =>
        have before := (windows.followed i).mp (List.getElem?_eq_some_iff.mp found).1
        rw [Nat.succ_mul]
        omega
  rw [windows.placed i piece found, ← length_pos_iff, length_take, length_drop]
  omega

/-- Two neighbouring windows have the overlap in common. -/
theorem AreWindows.shared (windows : AreWindows text width 0 pieces) (wide : overlap < width)
    {i : Nat} {first second : List Char} (here : pieces[i]? = some first)
    (next : pieces[i + 1]? = some second) :
    ∃ before both after, first = before ++ both ∧ second = both ++ after ∧
      both.length = overlap := by
  have short := (windows.followed i).mp (List.getElem?_eq_some_iff.mp next).1
  have firstPlace := windows.placed i first here
  have secondPlace := windows.placed (i + 1) second next
  rcases Nat.exists_eq_add_of_lt wide with ⟨extra, rfl⟩
  rw [Nat.zero_add, Nat.add_assoc, Nat.add_sub_cancel_left] at short firstPlace secondPlace
  rw [Nat.succ_mul, ← drop_drop, take_add] at secondPlace
  rw [Nat.add_comm overlap, take_add] at firstPlace
  refine ⟨_, _, _, firstPlace, secondPlace, ?_⟩
  rw [length_take, length_drop, length_drop]
  omega

/-- The number of windows: the first one, and as many as it takes to get over the rest. -/
theorem AreWindows.counted (windows : AreWindows text width 0 pieces) (wide : overlap < width) :
    (pieces.length : Int) =
      if (text.length : Int) ≤ width then 1
      else 1 + ⌈((text.length : ℚ) - width) / (width - overlap)⌉ := by
  rcases windows.joined with ⟨first, later, rfl, -⟩
  have followed : ∀ i, i < later.length ↔ i * (width - overlap) + width < text.length := by
    intro i
    rw [← Nat.zero_add (i * (width - overlap)), ← windows.followed i, length_cons,
      Nat.add_lt_add_iff_right]
  have second := followed 0
  rw [Nat.zero_mul] at second
  rw [length_cons, Nat.cast_succ]
  by_cases whole : (text.length : Int) ≤ width
  · rw [if_pos whole]
    omega
  · -- The rest is more than what the windows but one move by, and no more than what all move by.
    rcases Nat.exists_eq_add_of_lt (show 0 < later.length by omega) with ⟨k, count⟩
    have before : ((k * (width - overlap : Nat) + width : Nat) : ℚ) < text.length :=
      Nat.cast_lt.mpr ((followed k).mp (by omega))
    have reached : (text.length : ℚ) ≤ ((k + 1) * (width - overlap : Nat) + width : Nat) :=
      Nat.cast_le.mpr (not_lt.mp ((followed (k + 1)).not.mp (by omega)))
    have positive : (0 : ℚ) < (width - overlap : Nat) :=
      Nat.cast_pos.mpr (Nat.sub_pos_of_lt wide)
    rw [if_neg whole, Int.add_comm, Int.add_right_inj, eq_comm, Int.ceil_eq_iff,
      ← Nat.cast_sub wide.le, count, lt_div_iff₀ positive, div_le_iff₀ positive]
    push_cast at before reached ⊢
    constructor <;> linarith

end Windows

/-- Every text is covered exactly by the pieces of a width that exceeds the overlap. -/
theorem chunks_cover_text (text : List Char) (width : Int) (present : text ≠ [])
    (wide : 100 < width) :
    ∃ pieces, chunks? text width = some pieces ∧ Covers 100 text width pieces := by
  lift width to Nat using by omega
  have exceeds : overlap < width := by
    rw [overlap]
    omega
  rcases exists_cutFrom_of_progress wide text 0 with ⟨pieces, cut, -⟩
  have windows := cut.areWindows exceeds rfl (length_pos_iff.mpr present)
  refine ⟨pieces, chunks?_eq_some_iff.mpr cut, ?_, ?_, ?_, ?_, windows.joined,
    windows.counted exceeds⟩
  · intro piece member
    rcases mem_iff_getElem?.mp member with ⟨i, found⟩
    refine ⟨windows.ne_nil exceeds present found, ?_⟩
    rw [windows.placed i piece found, length_take]
    omega
  · intro i piece found
    have start : (i : Int) * (width - (100 : Nat)) = (i * (width - overlap) : Nat) := by
      rw [Nat.cast_mul, Nat.cast_sub exceeds.le]
      rfl
    rw [start, slice_natCast, windows.placed i piece found, Nat.zero_add]
  · intro piece member
    rcases mem_iff_getElem?.mp member with ⟨i, found⟩
    rw [getElem?_dropLast] at found
    by_cases followed : i < pieces.length - 1
    · rw [if_pos followed] at found
      exact congrArg Nat.cast (windows.length_of_followed found (by omega))
    · rw [if_neg followed] at found
      cases found
  · intro i first second here next
    exact windows.shared exceeds here next

/-- Two hundred and fifty characters, no two of them the same. -/
def manyCharacters : List Char := (range 250).map Char.ofNat

theorem manyCharacters_covered :
    manyCharacters ≠ [] ∧ (100 : Int) < 120 ∧
      ∃ pieces, chunks? manyCharacters 120 = some pieces ∧ Covers 100 manyCharacters 120 pieces ∧
        pieces.length = 8 := by
  have present : manyCharacters ≠ [] := by
    simp [manyCharacters]
  have wide : (100 : Int) < 120 := by
    decide
  rcases chunks_cover_text manyCharacters 120 present wide with ⟨pieces, found, covers⟩
  refine ⟨present, wide, pieces, found, covers, ?_⟩
  have counted := covers.counted
  rw [manyCharacters, length_map, length_range] at counted
  norm_num at counted
  exact_mod_cast counted

/-- The cutting ends exactly if there is no text, one piece holds all of it, or the width exceeds
the overlap; otherwise no turn is the last one, however many there are. -/
theorem cutting_ends_iff (text : List Char) (width : Int) :
    (∀ pieces, chunks? text width = some pieces ↔ CutFrom text width 0 pieces) ∧
      ((∃ pieces, CutFrom text width 0 pieces) ↔
        text = [] ∨ (text.length : Int) ≤ width ∨ 100 < width) ∧
      ((∃ turn, IsLastTurn text.length width ((nextStart text.length width)^[turn] 0)) ↔
        text = [] ∨ (text.length : Int) ≤ width ∨ 100 < width) := by
  refine ⟨fun _ => chunks?_eq_some_iff, ⟨?_, ?_⟩, ⟨?_, ?_⟩⟩
  · rintro ⟨pieces, cut⟩
    rcases cut.exists_lastTurn with ⟨turn, stops⟩
    exact ends_of_lastTurn stops
  · intro ends
    rcases Ends.exists_cutFrom ends with ⟨pieces, cut, -⟩
    exact ⟨pieces, cut⟩
  · rintro ⟨turn, stops⟩
    exact ends_of_lastTurn stops
  · intro ends
    rcases Ends.exists_cutFrom ends with ⟨pieces, cut, -⟩
    exact cut.exists_lastTurn

end Text
end CodeQuality
