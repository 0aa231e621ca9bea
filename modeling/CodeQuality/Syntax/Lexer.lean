import CodeQuality.Syntax.Numeral
import CodeQuality.Syntax.Token
import CodeQuality.Text.Compatibility
import CodeQuality.Text.Identifier

namespace CodeQuality
namespace Syntax

/-!
From text to tokens.

Outside of brackets the indentation of every line that is neither blank nor a
comment is compared with a stack of open indentations; it is measured twice, with
tabs reaching to multiples of eight and with tabs counting one, and both measures
have to agree on the nesting.  Inside brackets line ends mean nothing.  A text that
cannot be cut into tokens has none.
-/

/-- A scanner's view of the text: what is left, and where it stands. -/
structure Cursor where
  rest : List Char
  place : Position

/-- Go over the first characters of the text. -/
def Cursor.skip (cursor : Cursor) (count : Nat) : Cursor :=
  ⟨cursor.rest.drop count, cursor.place.afterAll (cursor.rest.take count)⟩

/-- Go to a later point of the text, given what is left there. -/
def Cursor.jump (cursor : Cursor) (rest : List Char) : Cursor :=
  cursor.skip (cursor.rest.length - rest.length)

/-- The two measures of an indentation. -/
structure Indentation where
  wide : Nat
  narrow : Nat
deriving DecidableEq

/-- The measures at the start of a line, and the text from its first other character on.  A line
break after a backslash continues the line; the blanks before the first such break count.
Nothing when a backslash stands before anything else, or at the end. -/
def indentation? (fixed : Option Nat) (measure : Indentation) :
    List Char → Option (Indentation × List Char)
  | ' ' :: rest => indentation? fixed ⟨measure.wide + 1, measure.narrow + 1⟩ rest
  | '\t' :: rest => indentation? fixed ⟨(measure.wide / 8 + 1) * 8, measure.narrow + 1⟩ rest
  | '\x0c' :: rest => indentation? fixed ⟨0, 0⟩ rest
  | '\\' :: '\n' :: next :: rest =>
      let fixed' := match fixed with
        | some width => some width
        | none => if measure.wide = 0 then none else some measure.wide
      indentation? fixed' measure (next :: rest)
  | '\\' :: _ => none
  | text =>
      match fixed with
      | some width => some (⟨width, width⟩, text)
      | none => some (measure, text)

/-- The state of the lexer between tokens. -/
structure Lexing where
  cursor : Cursor
  brackets : List Char
  indents : List Indentation
  done : List Token
  atLineStart : Bool

/-- Add a token that ends where the text `rest` begins. -/
def Lexing.emit (state : Lexing) (shape : Shape) (rest : List Char) : Lexing :=
  let next := state.cursor.jump rest
  { state with cursor := next, done := ⟨shape, state.cursor.place, next.place⟩ :: state.done }

/-- Add a layout token without text. -/
def Lexing.mark (state : Lexing) (shape : Shape) : Lexing :=
  { state with done := ⟨shape, state.cursor.place, state.cursor.place⟩ :: state.done }

/-- Most nested indentations. -/
def maxIndents : Nat := 100

/-- Most nested brackets. -/
def maxBrackets : Nat := 200

/-- Close indentations deeper than a measure; the measure has to be among the open ones. -/
def closeIndents (measure : Indentation) : List Indentation → Option (List Indentation × Nat)
  | [] => none
  | top :: below =>
      if measure.wide < top.wide then
        (closeIndents measure below).map fun (open', closed) => (open', closed + 1)
      else if measure = top then some (top :: below, 0)
      else none

/-- Compare the indentation of a line with the open ones and add the layout tokens. -/
def Lexing.indentTo (state : Lexing) (measure : Indentation) : Option Lexing :=
  match state.indents with
  | [] => none
  | top :: below =>
      if top.wide < measure.wide then
        if measure.narrow ≤ top.narrow ∨ maxIndents ≤ below.length + 1 then none
        else some ({ state with indents := measure :: top :: below }.mark .indent)
      else
        match closeIndents measure (top :: below) with
        | none => none
        | some (open', closed) =>
            some ((List.range closed).foldl (fun state _ => state.mark .dedent)
              { state with indents := open' })

/-- The rest of a string literal with one quote on each side: what stands before the closing
quote, and what follows it.  The characters read so far are in reverse order. -/
def shortBody? (quote : Char) (done : List Char) : List Char → Option (List Char × List Char)
  | [] => none
  | '\\' :: c :: rest => shortBody? quote (c :: '\\' :: done) rest
  | c :: rest =>
      if c = quote then some (done.reverse, rest)
      else if c = '\n' ∨ c = '\\' then none
      else shortBody? quote (c :: done) rest

/-- The rest of a string literal with three quotes on each side. -/
def longBody? (quote : Char) (done : List Char) : List Char → Option (List Char × List Char)
  | [] => none
  | '\\' :: c :: rest => longBody? quote (c :: '\\' :: done) rest
  | c :: rest =>
      if c = quote ∧ [quote, quote].isPrefixOf rest then some (done.reverse, rest.drop 2)
      else longBody? quote (c :: done) rest

/-- The flags of a string literal that the letters before its quote set; the letters are given
in lower case. -/
def literalFlags? : List Char → Option (Bool × Bool × Bool)
  | [] => some (false, false, false)
  | ['u'] => some (false, false, false)
  | ['r'] => some (true, false, false)
  | ['b'] => some (false, true, false)
  | ['f'] => some (false, false, true)
  | ['r', 'b'] => some (true, true, false)
  | ['b', 'r'] => some (true, true, false)
  | ['r', 'f'] => some (true, false, true)
  | ['f', 'r'] => some (true, false, true)
  | _ => none

/-- The letters before the quote of a string literal at the front of a text. -/
def literalPrefix? (text : List Char) : Option (List Char) :=
  let front := text.take 3
  let letters := front.takeWhile fun c => c ≠ '"' && c ≠ '\''
  if letters.length = front.length then none
  else
    let small := letters.map Char.toLower
    (literalFlags? small).map fun _ => small

/-- A string literal at the front of the text. -/
def stringLiteral? (cursor : Cursor) (letters : List Char) : Option (Literal × List Char) :=
  match literalFlags? letters, cursor.rest.drop letters.length with
  | some (isRaw, isBytes, isFormat), quote :: afterQuote =>
      let isLong := [quote, quote].isPrefixOf afterQuote
      let opening := letters.length + if isLong then 3 else 1
      let inside := cursor.skip opening
      let found := if isLong then longBody? quote [] inside.rest else shortBody? quote [] inside.rest
      found.map fun (body, rest) => (⟨isRaw, isBytes, isFormat, body, inside.place⟩, rest)
  | _, _ => none

/-- The symbols of three characters, then of two, then of one: the first that fits is taken. -/
def symbols : List String :=
  ["**=", "//=", ">>=", "<<=", "...",
    "**", "//", ">>", "<<", "<=", ">=", "==", "!=", "->", "+=", "-=", "*=", "/=", "%=", "&=",
    "|=", "^=", "@=", ":=", "<>",
    "+", "-", "*", "/", "%", "@", "&", "|", "^", "~", "<", ">", "(", ")", "[", "]", "\x7b",
    "\x7d", ",", ":", ";", ".", "="]

/-- The bracket that closes an opening one. -/
def closing? : Char → Option Char
  | '(' => some ')'
  | '[' => some ']'
  | '\x7b' => some '\x7d'
  | _ => none

/-- Keep account of brackets: an opening one is remembered, a closing one has to match. -/
def Lexing.account (state : Lexing) (c : Char) : Option Lexing :=
  match closing? c with
  | some close =>
      if maxBrackets ≤ state.brackets.length then none
      else some { state with brackets := close :: state.brackets }
  | none =>
      if c = ')' ∨ c = ']' ∨ c = '\x7d' then
        match state.brackets with
        | expected :: outer => if c = expected then some { state with brackets := outer } else none
        | [] => none
      else some state

/-- The token of a name: a keyword, or the compatibility form of an identifier. -/
def nameShape? (letters : List Char) : Option Shape :=
  let word := String.ofList letters
  if keywords.contains word then some (.keyword word)
  else if Text.isIdentifier letters then some (.name (String.ofList (Text.compatibilityForm letters)))
  else none

/-- Read one token that starts with a character which is neither blank nor a line end. -/
def Lexing.token (state : Lexing) : Option Lexing :=
  let text := state.cursor.rest
  match text with
  | [] => none
  | c :: after =>
      match literalPrefix? text with
      | some letters =>
          (stringLiteral? state.cursor letters).map fun (literal, rest) =>
            state.emit (.string literal) rest
      | none =>
          if isDigit c || (c = '.' && (after.head?.map isDigit).getD false) then
            (numeral? text).map fun (rest, isImaginary) => state.emit (.number isImaginary) rest
          else if isNameLike c then
            (nameShape? (text.takeWhile isNameLike)).map fun shape =>
              state.emit shape (text.dropWhile isNameLike)
          else
            match symbols.find? fun symbol => symbol.toList.isPrefixOf text with
            | none => none
            | some symbol =>
                (state.account c).map fun counted =>
                  counted.emit (.op symbol) (text.drop symbol.length)

/-- One step of the lexer; nothing when the text cannot be cut. -/
def Lexing.step (state : Lexing) : Option Lexing :=
  if state.atLineStart then
    match indentation? none ⟨0, 0⟩ state.cursor.rest with
    | none => none
    | some (measure, text) =>
        let moved := { state with cursor := state.cursor.jump text, atLineStart := false }
        match text with
        | '#' :: _ =>
            let comment := text.dropWhile (· ≠ '\n')
            some { moved with cursor := (moved.cursor.jump comment).skip 1, atLineStart := true }
        | '\n' :: _ => some { moved with cursor := moved.cursor.skip 1, atLineStart := true }
        | _ => if moved.brackets.isEmpty then moved.indentTo measure else some moved
  else
    match state.cursor.rest with
    | [] => none
    | '\n' :: rest =>
        let ended := if state.brackets.isEmpty then state.emit .newline rest
          else { state with cursor := state.cursor.skip 1 }
        some { ended with atLineStart := true }
    | '\\' :: '\n' :: rest => if rest.isEmpty then none else
        some { state with cursor := state.cursor.skip 2 }
    | c :: rest =>
        if c = ' ' ∨ c = '\t' ∨ c = '\x0c' then some { state with cursor := state.cursor.skip 1 }
        else if c = '#' then
          some { state with cursor := state.cursor.jump (rest.dropWhile (· ≠ '\n')) }
        else state.token

/-- Run the lexer to the end of the text.  Every step but one after a line end takes a
character, so twice the length bounds the steps. -/
def Lexing.run : (bound : Nat) → Lexing → Option Lexing
  | 0, _ => none
  | bound + 1, state =>
      if state.cursor.rest.isEmpty then some state
      else
        match state.step with
        | some next => next.run bound
        | none => none

/-- The tokens of a whole source text, whose line ends are line feeds. -/
def tokens? (source : List Char) : Option (List Token) :=
  let text := if source.isEmpty || source.getLast? = some '\n' then source else source ++ ['\n']
  let start : Lexing := ⟨⟨text, ⟨1, 0⟩⟩, [], [⟨0, 0⟩], [], true⟩
  match start.run (2 * text.length + 2) with
  | none => none
  | some state =>
      if !state.brackets.isEmpty then none
      else
        let closed := (List.range (state.indents.length - 1)).foldl
          (fun state _ => state.mark .dedent) state
        some (closed.mark .finish).done.reverse

/-- The tokens of an expression that stands inside a string literal, in brackets of its own. -/
def bracketedTokens? (text : List Char) (place : Position) : Option (List Token) :=
  let start : Lexing := ⟨⟨text, place⟩, [')'], [⟨0, 0⟩], [⟨.op "(", place, place⟩], false⟩
  match start.run (2 * text.length + 2) with
  | none => none
  | some state =>
      if state.brackets != [')'] then none
      else some ((state.mark (.op ")")).mark .finish).done.reverse

end Syntax
end CodeQuality
