namespace CodeQuality
namespace Files

/-!
Paths as lists of names.

The text of a path is cut at slashes; empty names and single dots vanish, double
dots stay until the path is resolved.
-/

/-- The names of a path between the root and its end. -/
abbrev Path := List String

/-- The pieces of a text between occurrences of a character, with the characters `current` of
the open piece in reverse order. -/
def piecesFrom (mark : Char) (current : List Char) : List Char → List (List Char)
  | [] => [current.reverse]
  | c :: rest =>
      if c = mark then current.reverse :: piecesFrom mark [] rest
      else piecesFrom mark (c :: current) rest

/-- The pieces of a text between occurrences of a character. -/
def pieces (mark : Char) (text : String) : List String :=
  (piecesFrom mark [] text.toList).map String.ofList

/-- The names of a path text. -/
def names (text : String) : Path :=
  (pieces '/' text).filter fun name => name ≠ "" && name ≠ "."

/-- Whether a path text starts at the root. -/
def isAbsolute (text : String) : Bool := text.toList.head? == some '/'

/-- The text of a path below a directory. -/
def relativeText (path : Path) : String := "/".intercalate path

/-- The text of a path from the root. -/
def absoluteText (path : Path) : String := "/" ++ "/".intercalate path

/-- Whether a name ends in a given text. -/
def endsWith (ending : String) (name : String) : Bool :=
  ending.toList.isSuffixOf name.toList

/-- The part of a name from its last dot on.  There is none when the last dot opens or closes
the name. -/
def suffix (name : String) : String :=
  let reversed := name.toList.reverse
  let after := reversed.takeWhile (· ≠ '.')
  let before := (reversed.dropWhile (· ≠ '.')).drop 1
  if after.isEmpty || before.isEmpty || after.length == reversed.length then ""
  else String.ofList ('.' :: after.reverse)

end Files
end CodeQuality
