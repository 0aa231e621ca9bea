import CodeQuality.Text.Blank
import CodeQuality.Text.Case
import CodeQuality.Text.Line
import CodeQuality.Text.Word

namespace CodeQuality
namespace Text

/-!
Patterns at the front of a text.

A scanner reads the front of a text and gives what it found and what is left.  The
matches of a scanner in a text are taken from left to right, and the next one is
looked for behind the last.
-/

/-- Reads the front of a text. -/
abbrev Scanner (α : Type) := List Char → Option (α × List Char)

/-- What is left of a text after a word, if the word is there. -/
def after? (word : List Char) (text : List Char) : Option (List Char) :=
  if word.isPrefixOf text then some (text.drop word.length) else none

/-- Whether a character is a given lower-case letter when case does not matter. -/
def isLetter (letter c : Char) : Bool :=
  toLowerChar c == letter || (letter == 'i' && c == 'ı') || (letter == 's' && c == 'ſ')

/-- What is left of a text after a word in lower case, if the word is there in any case. -/
def afterAnyCase? : (word : List Char) → List Char → Option (List Char)
  | [], text => some text
  | letter :: word, c :: rest => if isLetter letter c then afterAnyCase? word rest else none
  | _ :: _, [] => none

/-- What is left after the blanks in front of a text, of which there has to be one. -/
def afterBlanks? (text : List Char) : Option (List Char) :=
  match text with
  | c :: rest => if isBlank c then some (trimLeft rest) else none
  | [] => none

/-- The characters of a class in front of a text, of which there has to be one. -/
def run? (isMember : Char → Bool) (text : List Char) : Option (List Char × List Char) :=
  match text.takeWhile isMember with
  | [] => none
  | found => some (found, text.dropWhile isMember)

/-- Whether a text starts with a word character. -/
def startsWithWord (text : List Char) : Bool :=
  match text with
  | c :: _ => isWord c
  | [] => false

/-- A match: where it starts, the text from there on, how many characters it has, and what the
scanner found. -/
structure Match (α : Type) where
  offset : Nat
  line : Nat
  text : List Char
  length : Nat
  value : α

/-- The matches of a scanner from a point of a text on.  The scanner also sees the character
before; `skip` characters belong to the last match. -/
def matchesFrom (scan : Option Char → Scanner α) (offset line skip : Nat)
    (before : Option Char) : List Char → List (Match α)
  | [] => []
  | c :: rest =>
      let line' := if c = '\n' then line + 1 else line
      match skip with
      | remaining + 1 => matchesFrom scan (offset + 1) line' remaining (some c) rest
      | 0 =>
          match scan before (c :: rest) with
          | some (value, left) =>
              let length := (c :: rest).length - left.length
              ⟨offset, line, c :: rest, length, value⟩ ::
                matchesFrom scan (offset + 1) line' (length - 1) (some c) rest
          | none => matchesFrom scan (offset + 1) line' 0 (some c) rest

/-- The matches of a scanner in a text, none of them empty. -/
def findMatches (scan : Option Char → Scanner α) (text : List Char) : List (Match α) :=
  matchesFrom scan 0 1 0 none text

end Text
end CodeQuality
