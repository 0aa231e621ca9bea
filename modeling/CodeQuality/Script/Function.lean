import CodeQuality.Text.Matcher

namespace CodeQuality
namespace Script

/-!
Functions of a script, found by the shape of their heads.

There are four heads: a declaration by name, and a variable that is given a function
with a head of its own, an arrow function with brackets, or one without.  The body
of a function reaches to the brace that closes its first one; if there is none, it
is cut off.
-/

open Text

/-- Whether a character can stand in a name. -/
def isNameChar (c : Char) : Bool :=
  ('a' ≤ c && c ≤ 'z') || ('A' ≤ c && c ≤ 'Z') || ('0' ≤ c && c ≤ '9') || c == '_' || c == '$'

/-- What is left after a list of parameters in brackets. -/
def afterParameters? (text : List Char) : Option (List Char) :=
  match text with
  | '(' :: rest => after? [')'] (rest.dropWhile (· ≠ ')'))
  | _ => none

/-- What is left after a symbol with blanks before it. -/
def afterSymbol? (symbol : String) (text : List Char) : Option (List Char) :=
  after? symbol.toList (trimLeft text)

/-- The head of a declaration by name. -/
def declaration : Scanner String := fun text => do
  let text ← after? "function".toList text
  let text ← afterBlanks? text
  let (name, text) ← run? isNameChar text
  let text ← afterParameters? (trimLeft text)
  let text ← afterSymbol? "\x7b" text
  pure (String.ofList name, text)

/-- A variable that is given something: the words that open it, its name and the equality sign. -/
def variableHead : Scanner String := fun text => do
  let text ← (after? "const".toList text) <|> (after? "let".toList text) <|>
    (after? "var".toList text)
  let text ← afterBlanks? text
  let (name, text) ← run? isNameChar text
  let text ← afterSymbol? "=" text
  pure (String.ofList name, trimLeft text)

/-- A variable that is given a function. -/
def functionVariable : Scanner String := fun text => do
  let (name, text) ← variableHead text
  let text ← after? "function".toList text
  let text ← afterParameters? (trimLeft text)
  let text ← afterSymbol? "\x7b" text
  pure (name, text)

/-- A variable that is given an arrow function with brackets. -/
def arrowVariable : Scanner String := fun text => do
  let (name, text) ← variableHead text
  let text ← afterParameters? text
  let text ← afterSymbol? "=>" text
  let text ← afterSymbol? "\x7b" text
  pure (name, text)

/-- A variable that is given an arrow function of one bare parameter. -/
def bareArrowVariable : Scanner String := fun text => do
  let (name, text) ← variableHead text
  let (_, text) ← run? isNameChar text
  let text ← afterSymbol? "=>" text
  let text ← afterSymbol? "\x7b" text
  pure (name, text)

/-- The heads, in the order in which they are looked for. -/
def heads : List (Scanner String) :=
  [declaration, functionVariable, arrowVariable, bareArrowVariable]

/-- How many characters it takes to close as many braces as are open. -/
def closingWidth? (depth width : Nat) : List Char → Option Nat
  | [] => none
  | c :: rest =>
      if c = '\x7b' then closingWidth? (depth + 1) (width + 1) rest
      else if c = '\x7d' then
        if depth ≤ 1 then some (width + 1) else closingWidth? (depth - 1) (width + 1) rest
      else closingWidth? depth (width + 1) rest

/-- How much follows the head of a function whose braces are not closed. -/
def openWidth : Nat := 200

/-- The text of a function from its head on. -/
def bodyOf (found : Match String) : List Char :=
  let head := found.length - 1
  match closingWidth? 0 head (found.text.drop head) with
  | some width => found.text.take width
  | none => found.text.take (found.length + openWidth)

/-- A function of a script. -/
structure Function where
  name : String
  line : Nat
  body : List Char
deriving DecidableEq

/-- Keep the first of several functions with one name and line; `seen` are earlier ones. -/
def distinctFrom (seen : List (String × Nat)) : List Function → List Function
  | [] => []
  | function :: rest =>
      let key := (function.name, function.line)
      if seen.contains key then distinctFrom seen rest
      else function :: distinctFrom (key :: seen) rest

/-- All functions of a source text, head by head, with repetitions. -/
def allFunctions (source : List Char) : List Function :=
  heads.flatMap fun head =>
    (findMatches (fun _ => head) source).map fun found =>
      ⟨found.value, found.line, bodyOf found⟩

/-- The functions of a source text. -/
def functions (source : List Char) : List Function := distinctFrom [] (allFunctions source)

end Script
end CodeQuality
