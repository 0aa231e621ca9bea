import CodeQuality.Number.Decimal

namespace CodeQuality
namespace Syntax

/-!
Numerals at the front of a text.

Each scanner returns what is left of the text after the numeral, or nothing when
the characters cannot be a numeral.  A numeral must not run into a name, except
into one of the words that can follow an operand.
-/

/-- Whether a character is an ASCII digit. -/
def isDigit (c : Char) : Bool := '0' ≤ c && c ≤ '9'

/-- Whether a character can belong to a name as far as a scanner can tell: anything beyond
ASCII counts. -/
def isNameLike (c : Char) : Bool :=
  ('a' ≤ c && c ≤ 'z') || ('A' ≤ c && c ≤ 'Z') || isDigit c || c == '_' || 128 ≤ c.toNat

/-- The words that may follow a numeral without a space. -/
def operandFollowers : List String :=
  ["and", "else", "for", "if", "in", "is", "or", "not"]

/-- The text after a numeral, if the numeral may end here. -/
def numeralEnd? (text : List Char) : Option (List Char) :=
  match text with
  | [] => some []
  | c :: _ =>
      if operandFollowers.any fun word => word.toList.isPrefixOf text then some text
      else if isNameLike c then none
      else some text

/-- Pass over digits with single low lines between them, after a first digit. -/
def decimalTail? : List Char → Option (List Char)
  | [] => some []
  | '_' :: rest =>
      match rest with
      | digit :: more => if isDigit digit then decimalTail? more else none
      | [] => none
  | c :: rest => if isDigit c then decimalTail? rest else some (c :: rest)

/-- Pass over further digits of a base, with single low lines between them. -/
def radixTail? (isRadixDigit : Char → Bool) : List Char → Option (List Char)
  | [] => some []
  | '_' :: rest =>
      match rest with
      | digit :: more => if isRadixDigit digit then radixTail? isRadixDigit more else none
      | [] => none
  | c :: rest => if isRadixDigit c then radixTail? isRadixDigit rest else some (c :: rest)

/-- The digits of a base after its mark; the first may follow a low line. -/
def radixDigits? (isRadixDigit : Char → Bool) (text : List Char) : Option (List Char) :=
  let unmarked := match text with
    | '_' :: rest => rest
    | other => other
  match unmarked with
  | digit :: rest => if isRadixDigit digit then radixTail? isRadixDigit rest else none
  | [] => none

/-- What may follow the digits of a floating-point numeral: the mark of an imaginary number, or
the end.  The truth value says whether the number is imaginary. -/
def imaginaryEnd? (text : List Char) : Option (List Char × Bool) :=
  match text with
  | c :: rest =>
      if c = 'j' ∨ c = 'J' then (numeralEnd? rest).map fun after => (after, true)
      else (numeralEnd? text).map fun after => (after, false)
  | [] => some ([], false)

/-- An exponent, if there is one, and the end of the numeral. -/
def exponentEnd? (text : List Char) : Option (List Char × Bool) :=
  match text with
  | mark :: rest =>
      if mark = 'e' ∨ mark = 'E' then
        match rest with
        | sign :: digit :: more =>
            if sign = '+' ∨ sign = '-' then
              if isDigit digit then (decimalTail? more).bind imaginaryEnd? else none
            else if isDigit sign then (decimalTail? (digit :: more)).bind imaginaryEnd?
            else if "else".toList.isPrefixOf text then some (text, false)
            else none
        | [digit] => if isDigit digit then some ([], false) else none
        | [] => none
      else imaginaryEnd? text
  | [] => some ([], false)

/-- A fraction after its point, and the end of the numeral. -/
def fractionEnd? (text : List Char) : Option (List Char × Bool) :=
  match text with
  | c :: rest => if isDigit c then (decimalTail? rest).bind exponentEnd? else exponentEnd? text
  | [] => some ([], false)

/-- Pass over zeros, with single low lines between digits. -/
def zeroTail? : List Char → Option (List Char)
  | [] => some []
  | '_' :: rest =>
      match rest with
      | digit :: more =>
          if digit = '0' then zeroTail? more
          else if isDigit digit then some (digit :: more)
          else none
      | [] => none
  | c :: rest => if c = '0' then zeroTail? rest else some (c :: rest)

/-- The end of a decimal numeral after its whole digits.  Digits after leading zeros need a
fraction, an exponent or the mark of an imaginary number. -/
def wholeEnd? (afterZeros : Bool) (text : List Char) : Option (List Char × Bool) :=
  match text with
  | c :: rest =>
      if c = '.' then fractionEnd? rest
      else if c = 'e' ∨ c = 'E' then exponentEnd? text
      else if c = 'j' ∨ c = 'J' then imaginaryEnd? text
      else if afterZeros then none
      else (numeralEnd? text).map fun after => (after, false)
  | [] => if afterZeros then none else some ([], false)

/-- A numeral that starts with a zero, after the zero. -/
def zeroNumeral? (text : List Char) : Option (List Char × Bool) :=
  let radix := fun (isRadixDigit : Char → Bool) (rest : List Char) =>
    ((radixDigits? isRadixDigit rest).bind numeralEnd?).map fun after => (after, false)
  let decimal := fun (_ : Unit) =>
    match zeroTail? text with
    | none => none
    | some after =>
        match after with
        | c :: rest =>
            if isDigit c then (decimalTail? rest).bind (wholeEnd? true) else wholeEnd? false after
        | [] => wholeEnd? false after
  match text with
  | c :: rest =>
      if c = 'x' ∨ c = 'X' then radix Text.isHexDigit rest
      else if c = 'o' ∨ c = 'O' then radix (fun d => '0' ≤ d && d ≤ '7') rest
      else if c = 'b' ∨ c = 'B' then radix (fun d => d == '0' || d == '1') rest
      else decimal ()
  | [] => decimal ()

/-- Whether the characters of a numeral are an integer with too many digits. -/
def isOverlong (numeral : List Char) : Bool :=
  numeral.all (fun c => isDigit c || c == '_') &&
    decide (Number.maxIntegerDigits < (numeral.filter isDigit).length)

/-- A numeral at the front of a text that starts with a digit, or with a point and a digit: what
is left after it, and whether it is imaginary. -/
def numeral? (text : List Char) : Option (List Char × Bool) :=
  let found := match text with
    | '.' :: rest => fractionEnd? rest
    | '0' :: rest => zeroNumeral? rest
    | _ :: rest => (decimalTail? rest).bind (wholeEnd? false)
    | [] => none
  match found with
  | none => none
  | some (rest, isImaginary) =>
      if isOverlong (text.take (text.length - rest.length)) then none else some (rest, isImaginary)

end Syntax
end CodeQuality
