namespace CodeQuality
namespace CommandLine

/-!
Similar words.

Two words are similar when much of them agrees: the longest common stretch, and then,
in the same way, what stands before it and what stands behind it.
-/

/-- How many characters two texts have in common at their beginning. -/
def commonLength [BEq α] : List α → List α → Nat
  | a :: left, b :: right => if a == b then commonLength left right + 1 else 0
  | _, _ => 0

/-- A common stretch: where it begins in either text, and its length. -/
structure Stretch where
  left : Nat
  right : Nat
  length : Nat

/-- The longest common stretch that begins at the beginning of the first text; of several the
first in the second text. -/
def longestAt (position : Nat) (left : List Char) : (start : Nat) → List Char → Stretch
  | start, [] => ⟨position, start, 0⟩
  | start, c :: right =>
      let here := commonLength left (c :: right)
      let later := longestAt position left (start + 1) right
      if later.length ≤ here then ⟨position, start, here⟩ else later

/-- The longest common stretch; of several the first in the first text. -/
def longestFrom (right : List Char) : (position : Nat) → List Char → Stretch
  | position, [] => ⟨position, 0, 0⟩
  | position, c :: left =>
      let here := longestAt position (c :: left) 0 right
      let later := longestFrom right (position + 1) left
      if later.length ≤ here.length then here else later

/-- How many characters of two texts agree, when at most `depth` stretches stand one inside the
other. -/
def agreeing : (depth : Nat) → List Char → List Char → Nat
  | 0, _, _ => 0
  | depth + 1, left, right =>
      let stretch := longestFrom right 0 left
      if stretch.length = 0 then 0
      else
        agreeing depth (left.take stretch.left) (right.take stretch.right) + stretch.length +
          agreeing depth (left.drop (stretch.left + stretch.length))
            (right.drop (stretch.right + stretch.length))

/-- The similarity of two texts, as agreeing characters and all characters. -/
def similarity (left right : String) : Nat × Nat :=
  (agreeing (left.length + right.length + 1) left.toList right.toList, left.length + right.length)

/-- Whether a similarity is high enough for a suggestion. -/
def isClose (measured : Nat × Nat) : Bool := 3 * measured.2 ≤ 10 * measured.1

/-- How many suggestions are made at most. -/
def maxSuggestions : Nat := 3

/-- Whether a suggestion goes before another one: it is more similar, or as similar and higher
in the order of texts. -/
def goesBefore (first second : (Nat × Nat) × String) : Bool :=
  let left := first.1.1 * second.1.2
  let right := second.1.1 * first.1.2
  right < left || (left == right && decide (second.2 ≤ first.2))

/-- The words that are similar to a given one, the most similar ones if there are many, in the
order of texts. -/
def suggestions (word : String) (known : List String) : List String :=
  let measured := (known.map fun name => (similarity name word, name)).filter fun candidate =>
    isClose candidate.1
  let best := ((measured.mergeSort goesBefore).take maxSuggestions).map (·.2)
  best.mergeSort fun first second => decide (first ≤ second)

end CommandLine
end CodeQuality
