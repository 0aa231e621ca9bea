import CodeQuality.Syntax.Token
import CodeQuality.Text.Ranges

namespace CodeQuality
namespace Syntax

/-!
What stands inside string literals.

The escapes of a literal have to be complete.  A formatted literal is cut into text
and replacement fields; the expressions of the fields are returned with their
places, a field inside the format of another one after the outer field.  A format
may hold fields, but their own formats may not.
-/

/-- Whether the first characters of a text are that many hexadecimal digits. -/
def startsWithHex (count : Nat) (text : List Char) : Bool :=
  decide (count ≤ text.length) && (text.take count).all Text.isHexDigit

/-- Whether every escape of a text is complete.  A backslash at the end stands for itself. -/
def escapesComplete : List Char → Bool
  | [] => true
  | ['\\'] => true
  | '\\' :: mark :: rest =>
      let here :=
        if mark = 'x' then startsWithHex 2 rest
        else if mark = 'u' then startsWithHex 4 rest
        else if mark = 'U' then
          startsWithHex 8 rest && decide (Text.hexValue (rest.take 8) ≤ 0x10ffff)
        else if mark = 'N' then
          match rest with
          | '\x7b' :: name => name.contains '\x7d' && name.head? ≠ some '\x7d'
          | _ => false
        else true
      here && escapesComplete rest
  | _ :: rest => escapesComplete rest

/-- Whether every hexadecimal escape of a byte literal is complete. -/
def byteEscapesComplete : List Char → Bool
  | [] => true
  | '\\' :: mark :: rest => (mark ≠ 'x' || startsWithHex 2 rest) && byteEscapesComplete rest
  | _ :: rest => byteEscapesComplete rest

/-- An expression inside a formatted literal, with the place where its text starts. -/
structure Field where
  text : List Char
  place : Position

/-- Whether a field's text is blank for the language. -/
def isBlankField (text : List Char) : Bool :=
  text.all fun c => c == ' ' || c == '\t' || c == '\n' || c == '\x0c'

/-- The text of a field's expression up to the character that ends it, and what follows from that
character on.  The open quote tells whether it is one of three; the text read so far is in
reverse order. -/
def fieldText? (quote : Option (Char × Bool)) (brackets : List Char) (done : List Char) :
    List Char → Option (List Char × List Char)
  | [] => none
  | '\\' :: _ => none
  | c :: rest =>
      match quote with
      | some (mark, isLong) =>
          if c ≠ mark then fieldText? quote brackets (c :: done) rest
          else if !isLong then fieldText? none brackets (c :: done) rest
          else
            match rest with
            | second :: third :: more =>
                if second = mark ∧ third = mark then
                  fieldText? none brackets (third :: second :: c :: done) more
                else fieldText? quote brackets (c :: done) (second :: third :: more)
            | other => fieldText? quote brackets (c :: done) other
      | none =>
          if c = '\'' ∨ c = '"' then
            match rest with
            | second :: third :: more =>
                if second = c ∧ third = c then
                  fieldText? (some (c, true)) brackets (third :: second :: c :: done) more
                else fieldText? (some (c, false)) brackets (c :: done) (second :: third :: more)
            | other => fieldText? (some (c, false)) brackets (c :: done) other
          else if c = '(' then fieldText? none (')' :: brackets) (c :: done) rest
          else if c = '[' then fieldText? none (']' :: brackets) (c :: done) rest
          else if c = '\x7b' then fieldText? none ('\x7d' :: brackets) (c :: done) rest
          else if c = '#' then none
          else
            match brackets with
            | expected :: outer =>
                if c = ')' ∨ c = ']' ∨ c = '\x7d' then
                  if c = expected then fieldText? none outer (c :: done) rest else none
                else fieldText? none brackets (c :: done) rest
            | [] =>
                if c = '!' ∨ c = '=' ∨ c = '<' ∨ c = '>' then
                  match rest with
                  | '=' :: more => fieldText? none [] ('=' :: c :: done) more
                  | other =>
                      if c = '<' ∨ c = '>' then fieldText? none [] (c :: done) other
                      else some (done.reverse, c :: other)
                else if c = ':' ∨ c = '\x7d' then some (done.reverse, c :: rest)
                else if c = ')' ∨ c = ']' then none
                else fieldText? none [] (c :: done) rest
termination_by text => text.length

/-- What follows the marks that may stand between an expression and its format: an equality sign
with blanks, and a conversion. -/
def afterMarks? (text : List Char) : Option (List Char) :=
  let unmarked := match text with
    | '=' :: rest => rest.dropWhile fun c =>
        c == ' ' || (decide (9 ≤ c.toNat) && decide (c.toNat ≤ 13))
    | other => other
  match unmarked with
  | '!' :: conversion :: rest =>
      if conversion = 's' ∨ conversion = 'r' ∨ conversion = 'a' then some rest else none
  | '!' :: [] => none
  | other => some other

/-- How much text of a formatted literal stands before the next brace that matters, and whether a
doubled brace ends it.  Doubled braces count only outside of formats. -/
def literalSpan (isRaw isOuter : Bool) (length : Nat) : List Char → Nat × Bool
  | [] => (length, false)
  | '\\' :: 'N' :: '\x7b' :: rest =>
      if isRaw then
        match rest with
        | '\x7b' :: _ => if isOuter then (length + 3, true) else (length + 2, false)
        | _ => (length + 2, false)
      else
        let name := rest.takeWhile (· ≠ '\x7d')
        literalSpan isRaw isOuter (length + 4 + name.length) (rest.drop (name.length + 1))
  | '\\' :: c :: rest =>
      if isRaw || c = '\x7b' || c = '\x7d' then literalSpan isRaw isOuter (length + 1) (c :: rest)
      else literalSpan isRaw isOuter (length + 2) rest
  | c :: rest =>
      if c = '\x7b' ∨ c = '\x7d' then
        if isOuter && rest.head? = some c then (length + 1, true) else (length, false)
      else literalSpan isRaw isOuter (length + 1) rest
termination_by text => text.length
decreasing_by all_goals simp_wf <;> omega

/-- The fields of a formatted literal from a point on, inside as many formats as `depth` says.
Every step takes at least one character, so the length of the text bounds the steps. -/
def fieldsFrom? (isRaw : Bool) : (bound depth : Nat) → List Char → Position → List Field →
    Option (List Field)
  | 0, _, _, _, _ => none
  | bound + 1, depth, text, place, done =>
      let (length, isDoubled) := literalSpan isRaw (depth == 0) 0 text
      let chunk := text.take length
      if !isRaw && !escapesComplete chunk then none
      else
        let place' := place.afterAll chunk
        match text.drop length with
        | [] => if depth = 0 then some done.reverse else none
        | brace :: rest =>
            let inside := place'.after brace
            if isDoubled then fieldsFrom? isRaw bound depth rest inside done
            else if brace = '\x7d' then
              if depth = 0 then none else fieldsFrom? isRaw bound (depth - 1) rest inside done
            else if 2 ≤ depth then none
            else
              match fieldText? none [] [] rest with
              | none => none
              | some (expression, following) =>
                  if isBlankField expression then none
                  else
                    let found := ⟨expression, inside⟩ :: done
                    match afterMarks? following with
                    | some (c :: more) =>
                        let passed := (rest.length - more.length)
                        let next := inside.afterAll (rest.take passed)
                        if c = ':' then fieldsFrom? isRaw bound (depth + 1) more next found
                        else if c = '\x7d' then fieldsFrom? isRaw bound depth more next found
                        else none
                    | _ => none

/-- The fields of a string literal; nothing when the literal is not well formed. -/
def Literal.fields? (literal : Literal) : Option (List Field) :=
  let isRaw := literal.isRaw || !literal.body.contains '\\'
  if literal.isBytes then
    if literal.body.all (fun c => decide (c.toNat < 128)) &&
        (isRaw || byteEscapesComplete literal.body) then some []
    else none
  else if literal.isFormat then
    fieldsFrom? isRaw (literal.body.length + 1) 0 literal.body literal.bodyStart []
  else if isRaw || escapesComplete literal.body then some []
  else none

end Syntax
end CodeQuality
