namespace CodeQuality
namespace Text

/-!
Blank characters and the operations that remove or merge them.

The class holds the ASCII blanks, the four information separators, the next-line
control, the no-break space and the space separators of the other scripts.
-/

/-- Whether a character is blank. -/
def isBlank (c : Char) : Bool :=
  let point := c.toNat
  (9 ≤ point && point ≤ 13) || (0x1c ≤ point && point ≤ 0x20) || point == 0x85 ||
    point == 0xa0 || point == 0x1680 || (0x2000 ≤ point && point ≤ 0x200a) ||
    point == 0x2028 || point == 0x2029 || point == 0x202f || point == 0x205f ||
    point == 0x3000

/-- Remove the blanks in front of a text. -/
def trimLeft (text : List Char) : List Char := text.dropWhile isBlank

/-- Remove the blanks at the end of a text. -/
def trimRight (text : List Char) : List Char := (text.reverse.dropWhile isBlank).reverse

/-- Remove the blanks on both sides of a text. -/
def trim (text : List Char) : List Char := trimRight (trimLeft text)

/-- Replace every run of blanks by one space.  `afterBlank` says that the last character
was a blank that has been replaced already. -/
def collapseFrom (afterBlank : Bool) : List Char → List Char
  | [] => []
  | c :: rest =>
      if isBlank c then
        if afterBlank then collapseFrom true rest else ' ' :: collapseFrom true rest
      else c :: collapseFrom false rest

/-- Replace every run of blanks by one space. -/
def collapseBlanks (text : List Char) : List Char := collapseFrom false text

/-- Remove the blanks on both sides of a string. -/
def trimString (text : String) : String := String.ofList (trim text.toList)

end Text
end CodeQuality
