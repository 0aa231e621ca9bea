import CodeQuality.Syntax.Expression

namespace CodeQuality
namespace Syntax

open Rule

/-!
Patterns of match statements.

As for expressions, the rules are written over a rule for the patterns inside, which
is used only after a token has been taken.  Captures and literals have no children;
formatted literals do.
-/

/-- What reads the patterns inside a pattern, and the strings in it. -/
structure PatternGrammar where
  pattern : Rule Node
  strings : Rule Node

/-- A name that a pattern binds. -/
def captureTarget : Rule Unit := do
  let id ← name
  refuseIf (id == "_")
  refuseIf (← atSymbol ".")
  refuseIf (← atSymbol "(")
  refuseIf (← atSymbol "=")

/-- A number; says whether it is imaginary. -/
def numberToken : Rule Bool := do
  match ← next with
  | .number isImaginary =>
      skip
      pure isImaginary
  | _ => failure

/-- A number with a sign before it, or the sum of such a number and an imaginary one. -/
def signedNumber : Rule Node := do
  let start ← place
  let _ ← acceptSymbol "-"
  let isImaginary ← numberToken
  let isSum ← do
    if ← atSymbol "+" then pure true else atSymbol "-"
  if isSum then
    refuseIf isImaginary
    skip
    demand (← numberToken)
  node .expression start []

/-- A literal of a pattern or of a key. -/
def literalPattern (self : PatternGrammar) : Rule Node := do
  let start ← place
  match ← next with
  | .number _ => signedNumber
  | .string _ => self.strings
  | .keyword word =>
      demand (["True", "False", "None"].contains word)
      skip
      node .expression start []
  | .op symbol => if symbol = "-" then signedNumber else failure
  | _ => failure

/-- A name with attributes after it; says whether there are any. -/
def dottedValue : Rule Bool := do
  let _ ← name
  let members ← repeatWhile (atSymbol ".") do
    skip
    name
  pure (!members.isEmpty)

/-- One item of a sequence, perhaps a starred name. -/
def sequenceItem (self : PatternGrammar) : Rule Node := do
  let start ← place
  if ← acceptSymbol "*" then
    if ← atName "_" then skip else captureTarget
    node .part start []
  else self.pattern

/-- The argument of a class pattern; says whether it is given by name. -/
def classItem (self : PatternGrammar) : Rule (Bool × Node) := do
  match ← next with
  | .name _ =>
      if ← beforeSymbol "=" then
        skip
        skip
        let found ← self.pattern
        pure (true, found)
      else
        let found ← self.pattern
        pure (false, found)
  | _ =>
      let found ← self.pattern
      pure (false, found)

/-- Whether the arguments by position stand before those by name. -/
def positionalFirst : List Bool → Bool
  | [] => true
  | isNamed :: rest => if isNamed then rest.all id else positionalFirst rest

/-- The arguments of a class pattern after the opening bracket. -/
def classPattern (self : PatternGrammar) (start : Position) : Rule Node := do
  if ← acceptSymbol ")" then node .part start []
  else
    let (found, _) ← items (classItem self)
    symbol ")"
    demand (positionalFirst (found.map (·.1)))
    node .part start (found.map (·.2))

/-- An entry of a mapping pattern: its key and its pattern, or the rest of the mapping. -/
def mappingItem (self : PatternGrammar) : Rule (Option (Node × Node)) := do
  let start ← place
  if ← acceptSymbol "**" then
    captureTarget
    pure none
  else
    let key ← match ← next with
      | .name _ => do
          demand (← dottedValue)
          node .expression start []
      | _ => literalPattern self
    symbol ":"
    let found ← self.pattern
    pure (some (key, found))

/-- The entries of a mapping pattern after the opening bracket; the rest comes last. -/
def mappingPattern (self : PatternGrammar) (start : Position) : Rule Node := do
  if ← acceptSymbol "\x7d" then node .part start []
  else
    let (found, _) ← items (mappingItem self)
    symbol "\x7d"
    refuseIf (found.dropLast.any Option.isNone)
    let entries := found.filterMap id
    node .part start (entries.map (·.1) ++ entries.map (·.2))

/-- A pattern without alternatives. -/
def closedPattern (self : PatternGrammar) : Rule Node := do
  let start ← place
  match ← next with
  | .name id =>
      if id == "_" then
        skip
        node .part start []
      else
        let _ ← dottedValue
        if ← acceptSymbol "(" then classPattern self start
        else
          refuseIf (← atSymbol "=")
          node .part start []
  | .op symbol =>
      if symbol = "(" then
        skip
        if ← acceptSymbol ")" then node .part start []
        else
          let isStarred ← atSymbol "*"
          let (found, hasComma) ← items (sequenceItem self)
          refuseIf (isStarred && !hasComma)
          Rule.symbol ")"
          node .part start found
      else if symbol = "[" then
        skip
        if ← acceptSymbol "]" then node .part start []
        else
          let (found, _) ← items (sequenceItem self)
          Rule.symbol "]"
          node .part start found
      else if symbol = "\x7b" then
        skip
        mappingPattern self start
      else literalPattern self
  | _ => literalPattern self

/-- Alternatives, perhaps bound to a name. -/
def patternRule (self : PatternGrammar) : Rule Node := do
  let start ← place
  let first ← closedPattern self
  let rest ← repeatWhile (atSymbol "|") do
    skip
    closedPattern self
  if ← acceptKeyword "as" then captureTarget
  node .part start (first :: rest)

/-- The patterns that are nested at most so deep. -/
def pattern (strings : Rule Node) : (depth : Nat) → Rule Node
  | 0 => failure
  | depth + 1 => patternRule ⟨pattern strings depth, strings⟩

/-- The pattern of a case: a pattern, or a sequence without brackets. -/
def casePattern (strings : Rule Node) (depth : Nat) : Rule Node := do
  let start ← place
  let isStarred ← atSymbol "*"
  let (found, hasComma) ← items (sequenceItem ⟨pattern strings depth, strings⟩)
  refuseIf (isStarred && !hasComma)
  node .part start found

end Syntax
end CodeQuality
