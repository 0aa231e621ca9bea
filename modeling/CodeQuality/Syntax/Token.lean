namespace CodeQuality
namespace Syntax

/-!
Tokens of Python source text.

A token has a shape and the two positions between which it stands.  Lines are
counted from one, columns in characters from zero.  Layout is part of the token
stream: the end of a statement and the two changes of indentation are tokens.
-/

/-- A place in a text. -/
structure Position where
  line : Nat
  column : Nat
deriving DecidableEq

/-- The place after one more character. -/
def Position.after (place : Position) (c : Char) : Position :=
  if c = '\n' then ⟨place.line + 1, 0⟩ else ⟨place.line, place.column + 1⟩

/-- The place after a text. -/
def Position.afterAll (place : Position) (text : List Char) : Position :=
  text.foldl Position.after place

/-- A string literal as it stands in the text: its flags, what stands between the quotes, and
where that starts. -/
structure Literal where
  isRaw : Bool
  isBytes : Bool
  isFormat : Bool
  body : List Char
  bodyStart : Position

/-- What a token is. -/
inductive Shape where
  | name (id : String)
  | keyword (word : String)
  | number (isImaginary : Bool)
  | string (literal : Literal)
  | op (symbol : String)
  | newline
  | indent
  | dedent
  | finish

/-- Whether a token is text rather than layout. -/
def Shape.isText : Shape → Bool
  | .newline => false
  | .indent => false
  | .dedent => false
  | .finish => false
  | _ => true

/-- A token with its place. -/
structure Token where
  shape : Shape
  start : Position
  stop : Position

/-- The words that cannot be names. -/
def keywords : List String :=
  ["False", "None", "True", "and", "as", "assert", "async", "await", "break", "class", "continue",
    "def", "del", "elif", "else", "except", "finally", "for", "from", "global", "if", "import",
    "in", "is", "lambda", "nonlocal", "not", "or", "pass", "raise", "return", "try", "while",
    "with", "yield"]

end Syntax
end CodeQuality
