import CodeQuality.Fault
import CodeQuality.Json.Basic
import CodeQuality.Number.Decimal

namespace CodeQuality
namespace Json

/-!
Reading JSON text.

The grammar is the standard one with two liberties: the names of the numbers that
are not finite are read as such, and a key that occurs twice keeps the place of
its first occurrence with the value of its last.  Reading a value returns what is
left of the text.
-/

/-- Why a text is not read. -/
inductive ReadFault where
  | malformed
  | tooManyDigits (count : Nat)
deriving DecidableEq

/-- The result of reading from the front of a text: the value and the rest. -/
abbrev Reading (α : Type) := Except ReadFault (α × List Char)

/-- Pass over the blanks that JSON allows between tokens. -/
def skipBlanks : List Char → List Char
  | [] => []
  | c :: rest => if c = ' ' ∨ c = '\n' ∨ c = '\t' ∨ c = '\r' then skipBlanks rest else c :: rest

/-- The value of four hexadecimal digits at the front of a text, and the rest. -/
def readUnit : List Char → Option (Nat × List Char)
  | a :: b :: c :: d :: rest =>
      if [a, b, c, d].all Text.isHexDigit then some (Text.hexValue [a, b, c, d], rest) else none
  | _ => none

/-- The character of an escape of one letter. -/
def simpleEscape? : Char → Option Char
  | '"' => some '"'
  | '\\' => some '\\'
  | '/' => some '/'
  | 'b' => some (Char.ofNat 8)
  | 'f' => some (Char.ofNat 12)
  | 'n' => some '\n'
  | 'r' => some '\r'
  | 't' => some '\t'
  | _ => none

/-- The character of an escape by number, after its `u`: one unit, or two that form a pair. -/
def readEscapedUnit (text : List Char) : Option (Char × List Char) :=
  match readUnit text with
  | none => none
  | some (unit, rest) =>
      if 0xd800 ≤ unit ∧ unit < 0xdc00 then
        match rest with
        | '\\' :: 'u' :: next =>
            match readUnit next with
            | some (second, after) =>
                if 0xdc00 ≤ second ∧ second < 0xe000 then
                  some (Char.ofNat (0x10000 + (unit - 0xd800) * 0x400 + (second - 0xdc00)), after)
                else some (Char.ofNat 0xfffd, rest)
            | none => some (Char.ofNat 0xfffd, rest)
        | _ => some (Char.ofNat 0xfffd, rest)
      else if 0xdc00 ≤ unit ∧ unit < 0xe000 then some (Char.ofNat 0xfffd, rest)
      else some (Char.ofNat unit, rest)

/-- The rest of a string after its opening quote, with the characters read so far in reverse
order.  The bound is the number of characters that may still be read. -/
def readString : (bound : Nat) → (done : List Char) → List Char → Reading String
  | 0, _, _ => .error .malformed
  | bound + 1, done, text =>
      match text with
      | [] => .error .malformed
      | '"' :: rest => .ok (String.ofList done.reverse, rest)
      | '\\' :: 'u' :: rest =>
          match readEscapedUnit rest with
          | some (c, after) => readString bound (c :: done) after
          | none => .error .malformed
      | '\\' :: letter :: rest =>
          match simpleEscape? letter with
          | some c => readString bound (c :: done) rest
          | none => .error .malformed
      | c :: rest =>
          if c < ' ' ∨ c = '\\' then .error .malformed else readString bound (c :: done) rest

/-- The longest run of ASCII digits at the front of a text, and the rest. -/
def spanDigits (text : List Char) : List Char × List Char :=
  text.span fun c => '0' ≤ c && c ≤ '9'

/-- The value of ASCII digits. -/
def digitsValue (digits : List Char) : Nat :=
  digits.foldl (fun value digit => 10 * value + (digit.toNat - '0'.toNat)) 0

/-- The fraction at the front of a text: its digits, none if there is no fraction. -/
def readFraction (text : List Char) : List Char × List Char :=
  match text with
  | '.' :: rest =>
      let (digits, after) := spanDigits rest
      if digits.isEmpty then ([], text) else (digits, after)
  | _ => ([], text)

/-- The exponent at the front of a text, if there is one. -/
def readExponent (text : List Char) : Option Int × List Char :=
  match text with
  | mark :: rest =>
      if mark = 'e' ∨ mark = 'E' then
        let (negative, unsigned) := match rest with
          | '-' :: digits => (true, digits)
          | '+' :: digits => (false, digits)
          | digits => (false, digits)
        let (digits, after) := spanDigits unsigned
        if digits.isEmpty then (none, text)
        else
          let size : Int := digitsValue digits
          (some (if negative then -size else size), after)
      else (none, text)
  | [] => (none, [])

/-- A number at the front of a text, after its sign.  It is an integer when it has neither
fraction nor exponent. -/
def readNumber (negative : Bool) (text : List Char) : Reading Json :=
  let (whole, rest) := match text with
    | '0' :: after => (['0'], after)
    | other => spanDigits other
  if whole.isEmpty then .error .malformed
  else
    let (fraction, afterFraction) := readFraction rest
    let (exponent, after) := readExponent afterFraction
    if fraction.isEmpty && exponent.isNone then
      if Number.maxIntegerDigits < whole.length then .error (.tooManyDigits whole.length)
      else
        let value : Int := digitsValue whole
        .ok (.int (if negative then -value else value), after)
    else
      let digits := digitsValue (whole ++ fraction)
      let power := exponent.getD 0 - (fraction.length : Int)
      .ok (.float (Number.ofScientific negative digits power), after)

/-- A word at the front of a text, and the rest after it. -/
def afterWord? (word : String) (text : List Char) : Option (List Char) :=
  let letters := word.toList
  if letters.isPrefixOf text then some (text.drop letters.length) else none

/-- A value that is neither string, list nor object. -/
def readScalar (text : List Char) : Reading Json :=
  match text with
  | 'n' :: _ =>
      match afterWord? "null" text with
      | some rest => .ok (.null, rest)
      | none => .error .malformed
  | 't' :: _ =>
      match afterWord? "true" text with
      | some rest => .ok (.bool true, rest)
      | none => .error .malformed
  | 'f' :: _ =>
      match afterWord? "false" text with
      | some rest => .ok (.bool false, rest)
      | none => .error .malformed
  | 'N' :: _ =>
      match afterWord? "NaN" text with
      | some rest => .ok (.float .nan, rest)
      | none => .error .malformed
  | 'I' :: _ =>
      match afterWord? "Infinity" text with
      | some rest => .ok (.float (.infinity false), rest)
      | none => .error .malformed
  | '-' :: unsigned =>
      match afterWord? "Infinity" unsigned with
      | some rest => .ok (.float (.infinity true), rest)
      | none => readNumber true unsigned
  | _ => readNumber false text

mutual

/-- A value at the front of a text.  The bound is the depth of nesting still allowed. -/
def readValue : (bound : Nat) → List Char → Reading Json
  | 0, _ => .error .malformed
  | bound + 1, text =>
      match text with
      | '"' :: rest =>
          match readString (rest.length + 1) [] rest with
          | .ok (content, after) => .ok (.str content, after)
          | .error fault => .error fault
      | '[' :: rest =>
          match skipBlanks rest with
          | ']' :: after => .ok (.arr [], after)
          | inner => readItems bound [] inner
      | '\x7b' :: rest =>
          match skipBlanks rest with
          | '\x7d' :: after => .ok (.obj [], after)
          | inner => readMembers bound [] inner
      | other => readScalar other

/-- The items of a list from the next item on, with the earlier ones in reverse order. -/
def readItems : (bound : Nat) → (done : List Json) → List Char → Reading Json
  | 0, _, _ => .error .malformed
  | bound + 1, done, text =>
      match readValue bound text with
      | .error fault => .error fault
      | .ok (item, after) =>
          match skipBlanks after with
          | ']' :: rest => .ok (.arr (item :: done).reverse, rest)
          | ',' :: rest => readItems bound (item :: done) (skipBlanks rest)
          | _ => .error .malformed

/-- The members of an object from the next key on. -/
def readMembers : (bound : Nat) → (done : List (String × Json)) → List Char → Reading Json
  | 0, _, _ => .error .malformed
  | bound + 1, done, text =>
      match text with
      | '"' :: afterQuote =>
          match readString (afterQuote.length + 1) [] afterQuote with
          | .error fault => .error fault
          | .ok (key, afterKey) =>
              match skipBlanks afterKey with
              | ':' :: afterColon =>
                  match readValue bound (skipBlanks afterColon) with
                  | .error fault => .error fault
                  | .ok (value, after) =>
                      let members := insertMember key value done
                      match skipBlanks after with
                      | '\x7d' :: rest => .ok (.obj members, rest)
                      | ',' :: rest => readMembers bound members (skipBlanks rest)
                      | _ => .error .malformed
              | _ => .error .malformed
      | _ => .error .malformed

end

/-- The value that a whole text denotes. -/
def parse (text : List Char) : Except ReadFault Json :=
  if text.head? = some (Char.ofNat 0xfeff) then .error .malformed
  else
    match readValue (text.length + 1) (skipBlanks text) with
    | .error fault => .error fault
    | .ok (value, rest) => if (skipBlanks rest).isEmpty then .ok value else .error .malformed

/-- The value that a whole text denotes, or the fault of a text that denotes none. -/
def load (text : List Char) : Outcome Json :=
  match parse text with
  | .ok value => .ok value
  | .error .malformed => .error .malformedJson
  | .error (.tooManyDigits count) => .error (.overlongNumeral count)

/-- The value that a whole string denotes, if it denotes one. -/
def parse? (text : String) : Option Json := (parse text.toList).toOption

end Json
end CodeQuality
