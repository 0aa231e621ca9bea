namespace CodeQuality
namespace Text

/-!
Finding one text in another, and cutting pieces out of a text by position.

Positions may be negative, in which case they count from the end, as positions in
requests do.
-/

/-- Whether a word stands somewhere in a text. -/
def occursIn (word : List Char) : List Char → Bool
  | [] => word.isEmpty
  | c :: rest => word.isPrefixOf (c :: rest) || occursIn word rest

/-- Whether a word stands somewhere in a text. -/
def holdsWord (word : String) (text : List Char) : Bool := occursIn word.toList text

/-- How many times a word of at least one character stands in a text, no two of them
overlapping; `skip` characters belong to the last one found. -/
def countFrom (word : List Char) (skip : Nat) : List Char → Nat
  | [] => 0
  | c :: rest =>
      match skip with
      | remaining + 1 => countFrom word remaining rest
      | 0 =>
          if word.isPrefixOf (c :: rest) then countFrom word (word.length - 1) rest + 1
          else countFrom word 0 rest

/-- How many times a word of at least one character stands in a text. -/
def occurrences (word : String) (text : List Char) : Nat := countFrom word.toList 0 text

/-- The place that a position means in a list of a given length: negative ones count from the
end, and none lies outside. -/
def clamp (length : Nat) (position : Int) : Nat :=
  if position < 0 then (position + length).toNat else min position.toNat length

/-- The part of a list from one position up to another. -/
def slice (items : List α) (start stop : Int) : List α :=
  let first := clamp items.length start
  let last := clamp items.length stop
  (items.take last).drop first

/-- The first items of a list, up to a position. -/
def upTo (items : List α) (stop : Int) : List α := items.take (clamp items.length stop)

/-- The texts between the lines of a report. -/
def joinLines (lines : List String) : String := "\n".intercalate lines

end Text
end CodeQuality
