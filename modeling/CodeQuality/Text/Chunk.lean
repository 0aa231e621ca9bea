import CodeQuality.Text.Search

namespace CodeQuality
namespace Text

/-!
Overlapping pieces of a text.

A piece has at most a given number of characters, and the next one starts a fixed
number of characters before the end of the last.  A width that does not exceed the
overlap makes no progress, so the pieces are given only when they come to an end.
-/

/-- How many characters two neighbouring pieces share. -/
def overlap : Nat := 100

/-- Where the piece that starts at a position ends. -/
def pieceEnd (length : Nat) (width start : Int) : Int := min (start + width) length

/-- The pieces from a position on, at most as many as a bound says; nothing when the bound is
reached first. -/
def piecesWithin (text : List Char) (width : Int) :
    (bound : Nat) → (start : Int) → Option (List (List Char))
  | 0, _ => none
  | bound + 1, start =>
      if start < text.length then
        let stop := pieceEnd text.length width start
        let piece := slice text start stop
        if stop = text.length then some [piece]
        else (piecesWithin text width bound (stop - overlap)).map (piece :: ·)
      else some []

/-- The overlapping pieces of a text.  Pieces that come to an end are no more than characters. -/
def chunks? (text : List Char) (width : Int) : Option (List (List Char)) :=
  if text.isEmpty then some [] else piecesWithin text width (text.length + 1) 0

end Text
end CodeQuality
