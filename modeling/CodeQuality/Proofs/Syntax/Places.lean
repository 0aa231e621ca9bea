import CodeQuality.Syntax.Lexer
import Mathlib.Data.List.Basic

namespace CodeQuality
namespace Syntax

/-!
Where tokens stand.

The lexer keeps the place of what is left to read, and a token takes its place from there.
Each step of the lexer goes over the front of what is left, so after any number of steps its
place is the one behind the text that was gone over.
-/

/-- A place of a text is what is reached from its start by going over some of it. -/
def Position.IsIn (text : List Char) (place : Position) : Prop :=
  ∃ front, front <+: text ∧ place = Position.afterAll ⟨1, 0⟩ front

theorem Position.afterAll_append (place : Position) (text other : List Char) :
    place.afterAll (text ++ other) = (place.afterAll text).afterAll other :=
  List.foldl_append

/-- A scanner is at a place of the text, and the rest is left. -/
def Cursor.IsIn (text : List Char) (cursor : Cursor) : Prop :=
  ∃ front, text = front ++ cursor.rest ∧ cursor.place = Position.afterAll ⟨1, 0⟩ front

/-- The lexer is at a place of the text, and all tokens so far start at places of it. -/
structure Lexing.IsIn (text : List Char) (state : Lexing) : Prop where
  cursor : state.cursor.IsIn text
  tokens : ∀ token ∈ state.done, token.start.IsIn text

section

variable {text : List Char}

variable {cursor : Cursor}

theorem Cursor.IsIn.place (isIn : cursor.IsIn text) : cursor.place.IsIn text := by
  rcases isIn with ⟨front, whole, reached⟩
  exact ⟨front, ⟨cursor.rest, whole.symm⟩, reached⟩

theorem Cursor.IsIn.skip (isIn : cursor.IsIn text) (count : Nat) :
    (cursor.skip count).IsIn text := by
  rcases isIn with ⟨front, whole, reached⟩
  refine ⟨front ++ cursor.rest.take count, ?_, ?_⟩
  · rw [whole, List.append_assoc, Cursor.skip, List.take_append_drop]
  · rw [Position.afterAll_append, ← reached]
    rfl

theorem Cursor.IsIn.jump (isIn : cursor.IsIn text) (rest : List Char) :
    (cursor.jump rest).IsIn text :=
  isIn.skip _

namespace Lexing.IsIn

variable {state next : Lexing}

theorem emit (isIn : state.IsIn text) (shape : Shape) (rest : List Char) :
    (state.emit shape rest).IsIn text :=
  ⟨isIn.cursor.jump rest, List.forall_mem_cons.mpr ⟨isIn.cursor.place, isIn.tokens⟩⟩

theorem mark (isIn : state.IsIn text) (shape : Shape) : (state.mark shape).IsIn text :=
  ⟨isIn.cursor, List.forall_mem_cons.mpr ⟨isIn.cursor.place, isIn.tokens⟩⟩

theorem marks (isIn : state.IsIn text) (shape : Shape) (times : List Nat) :
    (times.foldl (fun state _ => state.mark shape) state).IsIn text := by
  induction times generalizing state with
  | nil => exact isIn
  | cons _ rest ih => exact ih (isIn.mark shape)

theorem indentTo (isIn : state.IsIn text) {measure : Indentation}
    (indented : state.indentTo measure = some next) : next.IsIn text := by
  rw [Lexing.indentTo] at indented
  split at indented
  next => cases indented
  next top below _ =>
    split at indented
    next =>
      split at indented
      next => cases indented
      next =>
        cases indented
        have opened : { state with indents := measure :: top :: below }.IsIn text :=
          ⟨isIn.cursor, isIn.tokens⟩
        exact opened.mark .indent
    next =>
      split at indented
      next => cases indented
      next open' closed _ =>
        cases indented
        have left : { state with indents := open' }.IsIn text := ⟨isIn.cursor, isIn.tokens⟩
        exact left.marks .dedent _

theorem account (isIn : state.IsIn text) {c : Char} (counted : state.account c = some next) :
    next.IsIn text := by
  rw [Lexing.account] at counted
  split at counted
  next =>
    split at counted
    next => cases counted
    next =>
      cases counted
      exact ⟨isIn.cursor, isIn.tokens⟩
  next =>
    split at counted
    next =>
      split at counted
      next =>
        split at counted
        next =>
          cases counted
          exact ⟨isIn.cursor, isIn.tokens⟩
        next => cases counted
      next => cases counted
    next =>
      cases counted
      exact isIn

theorem token (isIn : state.IsIn text) (read : state.token = some next) : next.IsIn text := by
  rw [Lexing.token] at read
  split at read
  next => cases read
  next =>
    split at read
    next =>
      rcases Option.map_eq_some_iff.mp read with ⟨found, _, rfl⟩
      exact isIn.emit _ _
    next =>
      split at read
      next =>
        rcases Option.map_eq_some_iff.mp read with ⟨found, _, rfl⟩
        exact isIn.emit _ _
      next =>
        split at read
        next =>
          rcases Option.map_eq_some_iff.mp read with ⟨found, _, rfl⟩
          exact isIn.emit _ _
        next =>
          split at read
          next => cases read
          next =>
            rcases Option.map_eq_some_iff.mp read with ⟨counted, accounted, rfl⟩
            exact (isIn.account accounted).emit _ _

/-- What a step of the lexer keeps. -/
theorem step (isIn : state.IsIn text) (stepped : state.step = some next) : next.IsIn text := by
  rw [Lexing.step] at stepped
  split at stepped
  next =>
    split at stepped
    next => cases stepped
    next measure rest _ =>
      have moved := isIn.cursor.jump rest
      dsimp only at stepped
      split at stepped
      next =>
        cases stepped
        exact ⟨(moved.jump _).skip 1, isIn.tokens⟩
      next =>
        cases stepped
        exact ⟨moved.skip 1, isIn.tokens⟩
      next =>
        split at stepped
        next =>
          have indenting : { state with cursor := state.cursor.jump rest
                                        atLineStart := false }.IsIn text := ⟨moved, isIn.tokens⟩
          exact indenting.indentTo stepped
        next =>
          cases stepped
          exact ⟨moved, isIn.tokens⟩
  next =>
    split at stepped
    next => cases stepped
    next rest _ =>
      cases stepped
      split
      next => exact ⟨(isIn.emit .newline rest).cursor, (isIn.emit .newline rest).tokens⟩
      next => exact ⟨isIn.cursor.skip 1, isIn.tokens⟩
    next =>
      split at stepped
      next => cases stepped
      next =>
        cases stepped
        exact ⟨isIn.cursor.skip 2, isIn.tokens⟩
    next =>
      split at stepped
      next =>
        cases stepped
        exact ⟨isIn.cursor.skip 1, isIn.tokens⟩
      next =>
        split at stepped
        next =>
          cases stepped
          exact ⟨isIn.cursor.jump _, isIn.tokens⟩
        next => exact isIn.token stepped

/-- What a run of the lexer keeps. -/
theorem run {bound : Nat} (isIn : state.IsIn text) (ran : state.run bound = some next) :
    next.IsIn text := by
  induction bound generalizing state with
  | zero => cases ran
  | succ bound ih =>
      rw [Lexing.run] at ran
      split at ran
      next =>
        cases ran
        exact isIn
      next =>
        split at ran
        next stepped => exact ih (isIn.step stepped) ran
        next => cases ran

end Lexing.IsIn

end

/-- The lexer starts at the start of the text. -/
theorem Lexing.isIn_start (text : List Char) :
    Lexing.IsIn text ⟨⟨text, ⟨1, 0⟩⟩, [], [⟨0, 0⟩], [], true⟩ :=
  ⟨⟨[], rfl, rfl⟩, List.forall_mem_nil _⟩

/-- The text of which tokens are made ends with a line feed. -/
theorem isIn_of_mem_tokens? {source : List Char} {tokens : List Token}
    (cut : tokens? source = some tokens) {token : Token} (member : token ∈ tokens) :
    token.start.IsIn (source ++ ['\n']) := by
  rw [tokens?] at cut
  dsimp only at cut
  split at cut
  next => cases cut
  next state ran =>
    split at cut
    next => cases cut
    next =>
      cases cut
      have closed := (((Lexing.isIn_start _).run ran).marks .dedent
        (List.range (state.indents.length - 1))).mark .finish
      rcases closed.tokens token (List.mem_reverse.mp member) with ⟨front, inside, reached⟩
      refine ⟨front, inside.trans ?_, reached⟩
      split
      next => exact List.prefix_append _ _
      next => exact List.prefix_refl _

end Syntax
end CodeQuality
