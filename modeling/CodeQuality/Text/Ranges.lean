namespace CodeQuality
namespace Text

/-!
Sets of characters given by ranges of code points.

A property of characters that a standard defines by enumeration is kept as a
text of words: every range is the distance from the end of the range before it,
in hexadecimal, followed by `+` and the number of further code points when
there is more than one.  `Ranges.decode` reads that text, and `Ranges.contains`
finds a character by bisection, so membership costs a handful of comparisons.
-/

/-- The value of a hexadecimal digit; any other character counts as zero. -/
def hexDigitValue (digit : Char) : Nat :=
  if '0' ≤ digit ∧ digit ≤ '9' then digit.toNat - '0'.toNat
  else if 'a' ≤ digit ∧ digit ≤ 'f' then digit.toNat - 'a'.toNat + 10
  else if 'A' ≤ digit ∧ digit ≤ 'F' then digit.toNat - 'A'.toNat + 10
  else 0

/-- The number written in hexadecimal digits, most significant first. -/
def hexValue (digits : List Char) : Nat :=
  digits.foldl (fun value digit => 16 * value + hexDigitValue digit) 0

/-- Whether a character is a hexadecimal digit. -/
def isHexDigit (c : Char) : Bool :=
  ('0' ≤ c && c ≤ '9') || ('a' ≤ c && c ≤ 'f') || ('A' ≤ c && c ≤ 'F')

/-- The words of a text after the characters `current` of an open word, which are held in
reverse order. -/
def wordsFrom (current : List Char) : List Char → List (List Char)
  | [] => if current.isEmpty then [] else [current.reverse]
  | c :: rest =>
      if c = ' ' ∨ c = '\n' then
        if current.isEmpty then wordsFrom [] rest else current.reverse :: wordsFrom [] rest
      else wordsFrom (c :: current) rest

/-- The words of a text, cut at spaces and line feeds. -/
def words (text : List Char) : List (List Char) := wordsFrom [] text

/-- The parts of a word between its commas. -/
def fields (word : List Char) : List (List Char) :=
  let step := fun (parts : List (List Char)) (c : Char) =>
    match parts with
    | [] => if c = ',' then [[]] else [[c]]
    | part :: done => if c = ',' then [] :: part :: done else (part ++ [c]) :: done
  (word.foldl step [[]]).reverse

/-- Bisection for a code point among the entries with index from `low` up to, but not including,
`high`.  Each entry has a first and a last code point. -/
def bisect? {α : Type} (first last : α → Nat) (entries : Array α) (point low high : Nat) :
    Option α :=
  if _inside : low < high then
    let middle := (low + high) / 2
    match entries[middle]? with
    | none => none
    | some entry =>
        if point < first entry then bisect? first last entries point low middle
        else if last entry < point then bisect? first last entries point (middle + 1) high
        else some entry
  else none
termination_by high - low

/-- A set of code points as increasing, disjoint ranges, both ends included. -/
structure Ranges where
  bounds : Array (Nat × Nat)

namespace Ranges

/-- One encoded range after a range that ended at `previous`. -/
def decodeRange (previous : Nat) (word : List Char) : Nat × Nat :=
  let gap := word.takeWhile (· ≠ '+')
  let more := (word.dropWhile (· ≠ '+')).drop 1
  let first := previous + hexValue gap
  (first, first + hexValue more)

/-- The ranges encoded by a list of words, following a range that ended at `previous`. -/
def decodeWords (previous : Nat) : List (List Char) → List (Nat × Nat)
  | [] => []
  | word :: words =>
      let range := decodeRange previous word
      range :: decodeWords range.2 words

/-- Read a set of code points from its encoding. -/
def decode (table : String) : Ranges :=
  ⟨(decodeWords 0 (words table.toList)).toArray⟩

/-- The range that holds a code point, if there is one. -/
def rangeOf? (set : Ranges) (point : Nat) : Option (Nat × Nat) :=
  bisect? Prod.fst Prod.snd set.bounds point 0 set.bounds.size

/-- Whether a character belongs to the set. -/
def contains (set : Ranges) (c : Char) : Bool :=
  (set.rangeOf? c.toNat).isSome

end Ranges

end Text
end CodeQuality
