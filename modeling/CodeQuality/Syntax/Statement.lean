import CodeQuality.Syntax.Pattern

namespace CodeQuality
namespace Syntax

open Rule

/-!
Statements.

Simple statements end with their line or with a semicolon.  Compound statements hold
blocks, which are read by a rule that is used only after a token has been taken.
-/

/-! ## Simple statements -/

/-- The symbols of augmented assignment. -/
def augmentedSymbols : List String :=
  ["+=", "-=", "*=", "@=", "/=", "%=", "&=", "|=", "^=", "<<=", ">>=", "**=", "//="]

/-- Whether a symbol of augmented assignment comes next. -/
def atAugmented : Rule Bool := do
  match ← next with
  | .op symbol => pure (augmentedSymbols.contains symbol)
  | _ => pure false

/-- The values of an assignment after its first target: further targets and, last, the value. -/
def assigned (self : Grammar) : (bound : Nat) → Rule (List Node)
  | 0 => failure
  | bound + 1 => do
      symbol "="
      if ← atKeyword "yield" then
        let value ← yieldExpression self
        pure [value]
      else
        let value ← starExpressions self
        if ← atSymbol "=" then
          demand (isTarget true value)
          let rest ← assigned self bound
          pure (value :: rest)
        else pure [value]

/-- An assignment, or a list of expressions. -/
def expressionStatement (self : Grammar) : Rule Node := do
  let start ← place
  let first ← starExpressions self
  if ← atSymbol "=" then
    demand (isTarget true first)
    let rest ← assigned self (← get).limit
    node .statement start (first :: rest)
  else if ← acceptSymbol ":" then
    demand (isSingleTarget first)
    let annotation ← self .expression
    let value ← if ← acceptSymbol "=" then do
        let found ← yieldOrExpressions self
        pure [found]
      else pure []
    node .statement start (first :: annotation :: value)
  else if ← atAugmented then
    demand (isSingleTarget first)
    skip
    let value ← yieldOrExpressions self
    node .statement start [first, value]
  else node .statement start [first]

/-- A name with dots in it. -/
def dottedName : Rule String := do
  let first ← name
  let rest ← repeatWhile (atSymbol ".") do
    skip
    name
  pure (".".intercalate (first :: rest))

/-- A name to be imported, perhaps under another name. -/
def importedAs (imported : Rule String) : Rule String := do
  let found ← imported
  if ← acceptKeyword "as" then
    let _ ← name
  pure found

/-- An import of modules. -/
def importStatement : Rule Node := do
  let start ← place
  keyword "import"
  let names ← strictItems (importedAs dottedName)
  node (.imports none names) start []

/-- Whether dots come next. -/
def atDots : Rule Bool := do
  if ← atSymbol "." then pure true else atSymbol "..."

/-- The names that are taken from a module. -/
def importedNames : Rule (List String) := do
  if ← acceptSymbol "*" then pure ["*"]
  else if ← acceptSymbol "(" then
    let (names, _) ← items (importedAs name)
    symbol ")"
    pure names
  else strictItems (importedAs name)

/-- An import from a module, whose name may be left out after dots. -/
def fromStatement : Rule Node := do
  let start ← place
  keyword "from"
  let dots ← repeatWhile atDots skip
  let source ← if ← atKeyword "import" then do
      refuseIf dots.isEmpty
      pure none
    else some <$> dottedName
  keyword "import"
  let names ← importedNames
  node (.imports source names) start []

/-- Whether a statement ends here. -/
def atEnd : Rule Bool := do
  match ← next with
  | .newline => pure true
  | .op symbol => pure (symbol == ";")
  | _ => pure false

/-- The targets of a deletion. -/
def deletion (self : Grammar) : Rule Node := do
  let start ← place
  keyword "del"
  let (targets, _) ← items (self .primary)
  demand (areTargets false targets)
  node .statement start targets

/-- An assertion with its message. -/
def assertion (self : Grammar) : Rule Node := do
  let start ← place
  keyword "assert"
  let condition ← self .expression
  let message ← if ← acceptSymbol "," then do
      let found ← self .expression
      pure [found]
    else pure []
  node .assertion start (condition :: message)

/-- A raise with its cause. -/
def raiseStatement (self : Grammar) : Rule Node := do
  let start ← place
  keyword "raise"
  if ← atEnd then node .statement start []
  else
    let raised ← self .expression
    let cause ← if ← acceptKeyword "from" then do
        let found ← self .expression
        pure [found]
      else pure []
    node .statement start (raised :: cause)

/-- A statement without blocks. -/
def simpleStatement (self : Grammar) : Rule Node := do
  let start ← place
  match ← next with
  | .keyword word =>
      if word = "pass" ∨ word = "break" ∨ word = "continue" then
        skip
        node .statement start []
      else if word = "return" then
        skip
        if ← atEnd then node .statement start []
        else
          let value ← starExpressions self
          node .statement start [value]
      else if word = "import" then importStatement
      else if word = "from" then fromStatement
      else if word = "del" then deletion self
      else if word = "assert" then assertion self
      else if word = "raise" then raiseStatement self
      else if word = "global" ∨ word = "nonlocal" then
        skip
        let _ ← strictItems name
        node .statement start []
      else if word = "yield" then
        let value ← yieldExpression self
        node .statement start [value]
      else expressionStatement self
  | _ => expressionStatement self

/-- The simple statements of a line after the first one. -/
def moreSimpleStatements (self : Grammar) : (bound : Nat) → Rule (List Node)
  | 0 => failure
  | bound + 1 => do
      match ← next with
      | .newline =>
          skip
          pure []
      | .op ";" =>
          skip
          match ← next with
          | .newline =>
              skip
              pure []
          | _ =>
              let first ← simpleStatement self
              let rest ← moreSimpleStatements self bound
              pure (first :: rest)
      | _ => failure

/-- A line of simple statements. -/
def simpleStatements (self : Grammar) : Rule (List Node) := do
  let first ← simpleStatement self
  let rest ← moreSimpleStatements self (← get).limit
  pure (first :: rest)

/-! ## Blocks and compound statements -/

/-- Whether a line end comes next. -/
def Shape.isNewline : Shape → Bool
  | .newline => true
  | _ => false

/-- Whether a deeper indentation comes next. -/
def Shape.isIndent : Shape → Bool
  | .indent => true
  | _ => false

/-- Whether a block or the text ends here. -/
def Shape.isClosing : Shape → Bool
  | .dedent => true
  | .finish => true
  | _ => false

/-- What reads the statements inside a statement. -/
structure StatementGrammar where
  expressions : Grammar
  patterns : Rule Node
  statement : Rule (List Node)

/-- A block: simple statements on the same line, or statements on lines of their own. -/
def block (self : StatementGrammar) : Rule (List Node) := do
  if (← next).isNewline then
    skip
    layout Shape.isIndent
    let first ← self.statement
    let rest ← repeatWhile (do pure !(← next).isClosing) self.statement
    layout Shape.isClosing
    pure (first ++ rest.flatten)
  else simpleStatements self.expressions

/-- A colon and a block. -/
def body (self : StatementGrammar) : Rule (List Node) := do
  symbol ":"
  block self

/-- The block of a branch that may be missing. -/
def otherwise (self : StatementGrammar) (word : String) : Rule (Option (List Node)) := do
  if ← acceptKeyword word then some <$> body self else pure none

/-- A branch with its alternatives, from its condition on. -/
def branch (self : StatementGrammar) : (bound : Nat) → Position → Rule Node
  | 0, _ => failure
  | bound + 1, start => do
      let condition ← namedExpression self.expressions
      let inside ← body self
      if ← atKeyword "elif" then
        let place' ← place
        skip
        let other ← branch self bound place'
        node .branch start (condition :: inside ++ [other])
      else
        let other ← otherwise self "else"
        node .branch start (condition :: inside ++ other.getD [])

/-- A loop over a condition. -/
def whileStatement (self : StatementGrammar) : Rule Node := do
  let start ← place
  keyword "while"
  let condition ← namedExpression self.expressions
  let inside ← body self
  let other ← otherwise self "else"
  node (.loop other.isSome) start (condition :: inside ++ other.getD [])

/-- A loop over values, which started at a place. -/
def forStatement (self : StatementGrammar) (start : Position) : Rule Node := do
  keyword "for"
  let target ← targetList self.expressions
  keyword "in"
  let source ← starExpressions self.expressions
  let inside ← body self
  let other ← otherwise self "else"
  node (.loop other.isSome) start (target :: source :: inside ++ other.getD [])

/-- One item of a with statement, perhaps bound to a target. -/
def withItem (self : StatementGrammar) : Rule Node := do
  let start ← place
  let context ← self.expressions .expression
  if ← acceptKeyword "as" then
    let target ← targetItem self.expressions
    demand (isTarget true target)
    node .part start [context, target]
  else node .part start [context]

/-- The items of a with statement in brackets, up to its colon. -/
def bracketedItems (self : StatementGrammar) : Rule (List Node) := do
  symbol "("
  let (found, _) ← items (withItem self)
  symbol ")"
  demand (← atSymbol ":")
  pure found

/-- A with statement, which started at a place. -/
def withStatement (self : StatementGrammar) (start : Position) : Rule Node := do
  keyword "with"
  let found ← bracketedItems self <|> strictItems (withItem self)
  let inside ← body self
  node .statement start (found ++ inside)

/-- A handler; says whether it handles groups. -/
def handler (self : StatementGrammar) : Rule (Bool × Node) := do
  let start ← place
  keyword "except"
  let isGroup ← acceptSymbol "*"
  if ← atSymbol ":" then
    refuseIf isGroup
    let inside ← body self
    let found ← node .part start inside
    pure (isGroup, found)
  else
    let caught ← self.expressions .expression
    if ← acceptKeyword "as" then
      let _ ← name
    let inside ← body self
    let found ← node .part start (caught :: inside)
    pure (isGroup, found)

/-- A try statement.  Without handlers it has a final block and no other one. -/
def tryStatement (self : StatementGrammar) : Rule Node := do
  let start ← place
  keyword "try"
  let inside ← body self
  let handlers ← repeatWhile (atKeyword "except") (handler self)
  let other ← if handlers.isEmpty then pure none else otherwise self "else"
  let final ← otherwise self "finally"
  refuseIf (handlers.isEmpty && final.isNone)
  let areGroups := handlers.map (·.1)
  refuseIf (areGroups.contains true && areGroups.contains false)
  let kind := if areGroups.contains true then .statement
    else .attempt handlers.length other.isSome
  node kind start (inside ++ handlers.map (·.2) ++ other.getD [] ++ final.getD [])

/-- A class definition. -/
def classStatement (self : StatementGrammar) (decorators : List Node) : Rule Node := do
  let start ← place
  keyword "class"
  let id ← name
  let arguments ← if ← acceptSymbol "(" then classArguments self.expressions else pure []
  let inside ← body self
  node (.classDefinition id) start (arguments ++ inside ++ decorators)

/-- The names among decorators. -/
def decoratorNames (decorators : List Node) : List String :=
  decorators.filterMap fun decorator =>
    match decorator.kind with
    | .name id => some id
    | _ => none

/-- A function definition, which started at a place. -/
def functionStatement (self : StatementGrammar) (start : Position) (isAsync : Bool)
    (decorators : List Node) : Rule Node := do
  keyword "def"
  let id ← name
  symbol "("
  let (parameters, parametersTree) ← parameterList self.expressions true ")"
  symbol ")"
  let result ← if ← acceptSymbol "->" then do
      let found ← self.expressions .expression
      pure [found]
    else pure []
  let inside ← body self
  node (.function ⟨id, parameters, decoratorNames decorators, isAsync⟩) start
    (parametersTree :: inside ++ decorators ++ result)

/-- One case of a match statement. -/
def caseBlock (self : StatementGrammar) : Rule Node := do
  let start ← place
  demand (← atName "case")
  skip
  let found ← self.patterns
  let guard ← if ← acceptKeyword "if" then do
      let condition ← namedExpression self.expressions
      pure [condition]
    else pure []
  let inside ← body self
  node .part start (found :: guard ++ inside)

/-- A match statement. -/
def matchStatement (self : StatementGrammar) : Rule Node := do
  let start ← place
  demand (← atName "match")
  skip
  let subjectStart ← place
  let isStarred ← atSymbol "*"
  let (subjects, hasComma) ← items (starNamedExpression self.expressions)
  refuseIf (isStarred && !hasComma)
  let subject ← bareList subjectStart (subjects, hasComma)
  symbol ":"
  layout Shape.isNewline
  layout Shape.isIndent
  let first ← caseBlock self
  let rest ← repeatWhile (do pure !(← next).isClosing) (caseBlock self)
  layout Shape.isClosing
  node .statement start (subject :: first :: rest)

/-- A decorator with its line. -/
def decorator (self : StatementGrammar) : Rule Node := do
  symbol "@"
  let found ← namedExpression self.expressions
  layout Shape.isNewline
  pure found

/-- A definition after decorators. -/
def decorated (self : StatementGrammar) : Rule Node := do
  let decorators ← repeatWhile (atSymbol "@") (decorator self)
  let start ← place
  if ← atKeyword "class" then classStatement self decorators
  else if ← acceptKeyword "async" then functionStatement self start true decorators
  else functionStatement self start false decorators

/-- A statement after the word for asynchronous ones. -/
def asyncStatement (self : StatementGrammar) : Rule Node := do
  let start ← place
  keyword "async"
  if ← atKeyword "def" then functionStatement self start true []
  else if ← atKeyword "with" then withStatement self start
  else forStatement self start

/-- A statement, or a line of simple ones. -/
def statementRule (self : StatementGrammar) : Rule (List Node) := do
  let start ← place
  let one := fun (rule : Rule Node) => do pure [← rule]
  match ← next with
  | .keyword word =>
      if word = "if" then
        skip
        one (branch self (← get).limit start)
      else if word = "while" then one (whileStatement self)
      else if word = "for" then one (forStatement self start)
      else if word = "try" then one (tryStatement self)
      else if word = "with" then one (withStatement self start)
      else if word = "def" then one (functionStatement self start false [])
      else if word = "class" then one (classStatement self [])
      else if word = "async" then one (asyncStatement self)
      else simpleStatements self.expressions
  | .op "@" => one (decorated self)
  | .name "match" => one (matchStatement self) <|> simpleStatements self.expressions
  | _ => simpleStatements self.expressions

/-- The statements that are nested at most so deep. -/
def statement (expressions : Grammar) (patterns : Rule Node) : (depth : Nat) → Rule (List Node)
  | 0 => failure
  | depth + 1 => statementRule ⟨expressions, patterns, statement expressions patterns depth⟩

/-- A whole text of statements whose nesting is at most so deep. -/
def moduleRule (depth : Nat) : Rule Node := do
  let expressions := grammar depth
  let patterns := casePattern (strings expressions) depth
  let found ← repeatWhile (do pure !(← next).isClosing) (statement expressions patterns depth)
  node .module ⟨1, 0⟩ found.flatten

end Syntax
end CodeQuality
