namespace CodeQuality
namespace Text

/-!
Lines of a text.

There are two notions of a line.  `lines` ends a line at every character that a
reader would take for a line break, in any convention.  `physicalLines` ends a
line at a line feed, a carriage return or the pair of the two only; these are
the lines that source positions count.
-/

/-- Whether a character ends a line in some convention. -/
def isLineBreak (c : Char) : Bool :=
  let point := c.toNat
  (10 ≤ point && point ≤ 13) || (0x1c ≤ point && point ≤ 0x1e) || point == 0x85 ||
    point == 0x2028 || point == 0x2029

/-- The lines of a text after the characters `current` of an open line, which are held in
reverse order. -/
def linesFrom (current : List Char) : List Char → List (List Char)
  | [] => if current.isEmpty then [] else [current.reverse]
  | '\r' :: '\n' :: rest => current.reverse :: linesFrom [] rest
  | c :: rest =>
      if isLineBreak c then current.reverse :: linesFrom [] rest
      else linesFrom (c :: current) rest

/-- The lines of a text without their breaks.  A break at the end opens no further line. -/
def lines (text : List Char) : List (List Char) := linesFrom [] text

/-- The physical lines after the characters `current` of an open line, with their breaks. -/
def physicalLinesFrom (current : List Char) : List Char → List (List Char)
  | [] => if current.isEmpty then [] else [current.reverse]
  | '\r' :: '\n' :: rest => ('\n' :: '\r' :: current).reverse :: physicalLinesFrom [] rest
  | c :: rest =>
      if c = '\n' ∨ c = '\r' then (c :: current).reverse :: physicalLinesFrom [] rest
      else physicalLinesFrom (c :: current) rest

/-- The physical lines of a text, each with its break. -/
def physicalLines (text : List Char) : List (List Char) := physicalLinesFrom [] text

/-- Every line ending becomes a single line feed. -/
def unifyNewlines : List Char → List Char
  | [] => []
  | '\r' :: '\n' :: rest => '\n' :: unifyNewlines rest
  | c :: rest => (if c = '\r' then '\n' else c) :: unifyNewlines rest

/-- The number of the line on which a text that follows `before` starts. -/
def lineNumberAfter (before : List Char) : Nat := before.count '\n' + 1

end Text
end CodeQuality
