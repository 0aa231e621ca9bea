import CodeQuality.Syntax.Lexer
import CodeQuality.Syntax.Literal
import CodeQuality.Syntax.Rule

namespace CodeQuality
namespace Syntax

open Rule

/-!
Expressions.

The grammar of expressions is recursive, so its rules are written over a grammar that
reads the expressions inside: a rule goes there only after it has taken a token.
Tying the knot as many times as the text has characters is therefore enough.
Targets of assignments are read as expressions and checked afterwards.
-/

/-- The kinds of expressions that rules ask for, from loose to tight. -/
inductive Goal where
  | expression
  | disjunction
  | inversion
  | bitwise
  | factor
  | primary

/-- What reads the expressions inside an expression. -/
abbrev Grammar := Goal → Rule Node

mutual

/-- Whether an expression can be assigned to. -/
def isTarget (mayStar : Bool) : Node → Bool
  | .mk kind _ _ children =>
      match kind with
      | .name _ => true
      | .attribute _ => true
      | .subscript => true
      | .tuple => areTargets mayStar children
      | .list => areTargets mayStar children
      | .starred => mayStar && areTargets mayStar children
      | _ => false

/-- Whether all of several expressions can be assigned to. -/
def areTargets (mayStar : Bool) : List Node → Bool
  | [] => true
  | node :: rest => isTarget mayStar node && areTargets mayStar rest

end

/-- Whether an expression is a name, an attribute or a subscript. -/
def isSingleTarget (node : Node) : Bool :=
  match node.kind with
  | .name _ => true
  | .attribute _ => true
  | .subscript => true
  | _ => false

/-- The items of a bare list: one without a comma stands for itself. -/
def bareList (start : Position) (found : List Node × Bool) : Rule Node :=
  match found with
  | ([only], false) => pure only
  | (nodes, _) => node .tuple start nodes

/-- An expression after a star. -/
def starredOf (inner : Rule Node) : Rule Node := do
  let start ← place
  symbol "*"
  let child ← inner
  node .starred start [child]

/-- An expression that may bind a name to its value. -/
def namedExpression (self : Grammar) : Rule Node := do
  let start ← place
  match ← next with
  | .name id =>
      if ← beforeSymbol ":=" then
        skip
        let target ← node (.name id) start []
        skip
        let value ← self .expression
        node .expression start [target, value]
      else self .expression
  | _ => self .expression

/-- An item of a bare list: an expression, perhaps a starred one. -/
def starExpression (self : Grammar) : Rule Node := do
  if ← atSymbol "*" then starredOf (self .bitwise) else self .expression

/-- An item of a bracketed list. -/
def starNamedExpression (self : Grammar) : Rule Node := do
  if ← atSymbol "*" then starredOf (self .bitwise) else namedExpression self

/-- A bare list of expressions. -/
def starExpressions (self : Grammar) : Rule Node := do
  bareList (← place) (← items (starExpression self))

/-- A yield. -/
def yieldExpression (self : Grammar) : Rule Node := do
  let start ← place
  keyword "yield"
  if ← acceptKeyword "from" then
    let source ← self .expression
    node .expression start [source]
  else
    let value ← attempt (starExpressions self)
    node .expression start value.toList

/-- A yield, or a bare list of expressions. -/
def yieldOrExpressions (self : Grammar) : Rule Node := do
  if ← atKeyword "yield" then yieldExpression self else starExpressions self

/-- One target of a loop or of a clause. -/
def targetItem (self : Grammar) : Rule Node := do
  if ← atSymbol "*" then starredOf (self .primary) else self .primary

/-- The targets of a loop or of a clause. -/
def targetList (self : Grammar) : Rule Node := do
  let found ← bareList (← place) (← items (targetItem self))
  demand (isTarget true found)
  pure found

/-- Whether a clause of a comprehension comes next. -/
def atClause : Rule Bool := do
  if ← atKeyword "for" then pure true
  else if ← atKeyword "async" then
    match ← nextButOne with
    | .keyword word => pure (word == "for")
    | _ => pure false
  else pure false

/-- A clause of a comprehension with its conditions. -/
def clause (self : Grammar) : Rule Node := do
  let start ← place
  let _ ← acceptKeyword "async"
  keyword "for"
  let target ← targetList self
  keyword "in"
  let source ← self .disjunction
  let conditions ← repeatWhile (atKeyword "if") do
    skip
    self .disjunction
  node (.clause conditions.length) start (target :: source :: conditions)

/-- All clauses of a comprehension. -/
def clauses (self : Grammar) : Rule (List Node) := do
  let first ← clause self
  let rest ← repeatWhile atClause (clause self)
  pure (first :: rest)

/-! ## Parameters -/

/-- The forms of a parameter in a list. -/
inductive ParameterForm where
  | plain (hasDefault : Bool)
  | slash
  | star
  | remaining
  | mapping

/-- A parameter with its name, its node and its default. -/
structure Parameter where
  form : ParameterForm
  name : String
  tree : Node
  default? : Option Node

/-- Whether parameters after a star stand in order. -/
def namedInOrder : List ParameterForm → Bool
  | [] => true
  | [.mapping] => true
  | .plain _ :: rest => namedInOrder rest
  | _ => false

/-- Whether parameters stand in order: once one has a default all later ones that can be given by
position have one, a slash comes once and after a parameter, a bare star before one, and two
stars come last. -/
def inOrder (hasPlain hasSlash hasDefault : Bool) : List ParameterForm → Bool
  | [] => true
  | .plain given :: rest => (given || !hasDefault) && inOrder true hasSlash (given || hasDefault) rest
  | .slash :: rest => hasPlain && !hasSlash && inOrder hasPlain true hasDefault rest
  | .star :: .plain given :: rest => namedInOrder (.plain given :: rest)
  | .star :: _ => false
  | .remaining :: rest => namedInOrder rest
  | [.mapping] => true
  | .mapping :: _ => false

/-- The annotation of a parameter, if it may have one and has one. -/
def annotation? (isAnnotated : Bool) (inner : Rule Node) : Rule (List Node) := do
  if !isAnnotated then pure []
  else if ← acceptSymbol ":" then
    let found ← inner
    pure [found]
  else pure []

/-- One parameter of a list. -/
def parameter (self : Grammar) (isAnnotated : Bool) : Rule Parameter := do
  let start ← place
  if ← acceptSymbol "/" then
    let tree ← node .part start []
    pure ⟨.slash, "", tree, none⟩
  else if ← acceptSymbol "**" then
    let id ← name
    let annotation ← annotation? isAnnotated (self .expression)
    let tree ← node .part start annotation
    pure ⟨.mapping, id, tree, none⟩
  else if ← acceptSymbol "*" then
    match ← next with
    | .name id =>
        skip
        let annotation ← annotation? isAnnotated (starExpression self)
        let tree ← node .part start annotation
        pure ⟨.remaining, id, tree, none⟩
    | _ =>
        let tree ← node .part start []
        pure ⟨.star, "", tree, none⟩
  else
    let id ← name
    let annotation ← annotation? isAnnotated (self .expression)
    let tree ← node .part start annotation
    if ← acceptSymbol "=" then
      let value ← self .expression
      pure ⟨.plain true, id, tree, some value⟩
    else pure ⟨.plain false, id, tree, none⟩

/-- Whether a parameter can be given by position or opens the ones that cannot. -/
def ParameterForm.isPositional : ParameterForm → Bool
  | .plain _ => true
  | .slash => true
  | _ => false

/-- Whether a parameter is a plain one. -/
def ParameterForm.isPlain : ParameterForm → Bool
  | .plain _ => true
  | _ => false

/-- The names of the parameters that can be given by position and by name: the plain ones before
any star and after the slash, if there is one. -/
def flexibleNames (parameters : List Parameter) : List String :=
  let positional := parameters.takeWhile (·.form.isPositional)
  let afterSlash := positional.reverse.takeWhile (·.form.isPlain)
  afterSlash.reverse.map (·.name)

/-- The node of a parameter list: the parameters by position, the one for the remaining ones, the
ones by name, their defaults, the one for remaining names, and the defaults by position. -/
def parametersNode (start : Position) (parameters : List Parameter) : Rule Node :=
  let positional := parameters.takeWhile (·.form.isPositional)
  let others := parameters.dropWhile (·.form.isPositional)
  let plain := fun (group : List Parameter) => group.filter (·.form.isPlain)
  let trees := fun (group : List Parameter) => group.map (·.tree)
  let defaults := fun (group : List Parameter) => group.filterMap (·.default?)
  let isRemaining := fun (parameter : Parameter) => match parameter.form with
    | .remaining => true
    | _ => false
  let isMapping := fun (parameter : Parameter) => match parameter.form with
    | .mapping => true
    | _ => false
  node .part start <|
    trees (plain positional) ++ trees (others.filter isRemaining) ++ trees (plain others) ++
      defaults others ++ trees (others.filter isMapping) ++ defaults positional

/-- A parameter list up to a closing symbol, which is not taken. -/
def parameterList (self : Grammar) (isAnnotated : Bool) (closing : String) :
    Rule (List String × Node) := do
  let start ← place
  let found ← if ← atSymbol closing then pure [] else do
    let (parameters, _) ← items (parameter self isAnnotated)
    pure parameters
  demand (inOrder false false false (found.map (·.form)))
  let tree ← parametersNode start found
  pure (flexibleNames found, tree)

/-- A lambda expression. -/
def lambdaExpression (self : Grammar) : Rule Node := do
  let start ← place
  keyword "lambda"
  let (_, parameters) ← parameterList self false ":"
  symbol ":"
  let body ← self .expression
  node .expression start [parameters, body]

/-! ## Calls and subscripts -/

/-- The forms of an argument. -/
inductive ArgumentForm where
  | plain
  | starred
  | keyword
  | mapping
deriving DecidableEq

/-- Whether arguments stand in order: plain ones before any keyword, starred ones before any
mapping. -/
def argumentsInOrder (hasKeyword hasMapping : Bool) : List ArgumentForm → Bool
  | [] => true
  | .plain :: rest => !hasKeyword && !hasMapping && argumentsInOrder hasKeyword hasMapping rest
  | .starred :: rest => !hasMapping && argumentsInOrder hasKeyword hasMapping rest
  | .keyword :: rest => argumentsInOrder true hasMapping rest
  | .mapping :: rest => argumentsInOrder hasKeyword true rest

/-- One argument of a call. -/
def argument (self : Grammar) : Rule (ArgumentForm × Node) := do
  let start ← place
  if ← atSymbol "*" then
    let found ← starredOf (self .expression)
    pure (.starred, found)
  else if ← acceptSymbol "**" then
    let value ← self .expression
    let found ← node .part start [value]
    pure (.mapping, found)
  else
    match ← next with
    | .name _ =>
        if ← beforeSymbol "=" then
          skip
          skip
          let value ← self .expression
          let found ← node .part start [value]
          pure (.keyword, found)
        else
          let found ← namedExpression self
          pure (.plain, found)
    | _ =>
        let found ← namedExpression self
        pure (.plain, found)

/-- The nodes of arguments: those by position, then those by name. -/
def argumentNodes (arguments : List (ArgumentForm × Node)) : List Node :=
  let isPositional := fun (argument : ArgumentForm × Node) =>
    argument.1 = .plain || argument.1 = .starred
  ((arguments.filter isPositional) ++ arguments.filter fun argument => !isPositional argument).map
    (·.2)

/-- The arguments after the first one, up to the closing bracket. -/
def closeArguments (self : Grammar) (first : ArgumentForm × Node) : Rule (List Node) := do
  let (arguments, _) ← itemsAfter first (argument self)
  symbol ")"
  demand (argumentsInOrder false false (arguments.map (·.1)))
  pure (argumentNodes arguments)

/-- The arguments of a class definition after the opening bracket. -/
def classArguments (self : Grammar) : Rule (List Node) := do
  if ← acceptSymbol ")" then pure []
  else closeArguments self (← argument self)

/-- The arguments of a call after the opening bracket.  A generator stands alone. -/
def callArguments (self : Grammar) (start : Position) : Rule (List Node) := do
  if ← acceptSymbol ")" then pure []
  else
    let first ← argument self
    if first.1 = .plain then
      if ← atClause then
        let found ← clauses self
        symbol ")"
        let generator ← node .expression start (first.2 :: found)
        pure [generator]
      else closeArguments self first
    else closeArguments self first

/-- A bound of a slice, unless a symbol that can follow one comes next. -/
def sliceBound (self : Grammar) : Rule (List Node) := do
  match ← next with
  | .op symbol =>
      if symbol = ":" ∨ symbol = "]" ∨ symbol = "," then pure []
      else
        let bound ← self .expression
        pure [bound]
  | _ =>
      let bound ← self .expression
      pure [bound]

/-- The rest of a slice from its first colon on. -/
def sliceTail (self : Grammar) (start : Position) (lower : List Node) : Rule Node := do
  symbol ":"
  let upper ← sliceBound self
  let stride ← if ← acceptSymbol ":" then sliceBound self else pure []
  node .part start (lower ++ upper ++ stride)

/-- One item between square brackets. -/
def sliceItem (self : Grammar) : Rule Node := do
  let start ← place
  if ← atSymbol "*" then starredOf (self .expression)
  else if ← atSymbol ":" then sliceTail self start []
  else
    let isBinding ← beforeSymbol ":="
    let first ← namedExpression self
    if ← atSymbol ":" then
      refuseIf isBinding
      sliceTail self start [first]
    else pure first

/-- The callee's name, if the callee is a name or an attribute. -/
def calleeName (callee : Node) : String :=
  match callee.kind with
  | .name id => id
  | .attribute member => member
  | _ => ""

/-- Attributes, calls and subscripts after an expression. -/
def trailers (self : Grammar) (start : Position) : (bound : Nat) → Node → Rule Node
  | 0, _ => failure
  | bound + 1, inner => do
      if ← acceptSymbol "." then
        let member ← name
        trailers self start bound (← node (.attribute member) start [inner])
      else if ← atSymbol "(" then
        let opening ← place
        skip
        let arguments ← callArguments self opening
        trailers self start bound (← node (.call (calleeName inner)) start (inner :: arguments))
      else if ← atSymbol "[" then
        let opening ← place
        skip
        let index ← bareList opening (← items (sliceItem self))
        symbol "]"
        trailers self start bound (← node .subscript start [inner, index])
      else pure inner

/-! ## Atoms -/

/-- Whether a string literal comes next. -/
def atString : Rule Bool := do
  match ← next with
  | .string _ => pure true
  | _ => pure false

/-- Take a string literal. -/
def stringLiteral : Rule Literal := do
  match ← next with
  | .string literal =>
      skip
      pure literal
  | _ => failure

/-- The expression of a replacement field, which is read in brackets of its own. -/
def fieldExpression (self : Grammar) (field : Field) : Option Node :=
  match bracketedTokens? field.text field.place with
  | none => none
  | some tokens =>
      match (self .primary).run (.all tokens field.place) with
      | some (found, ⟨[_], _, _⟩) => some found
      | _ => none

/-- String literals that stand side by side. -/
def strings (self : Grammar) : Rule Node := do
  let start ← place
  let literals ← repeatWhile atString stringLiteral
  let areBytes := literals.map (·.isBytes)
  refuseIf (areBytes.contains true && areBytes.contains false)
  match literals.mapM Literal.fields? with
  | none => failure
  | some fields =>
      match fields.flatten.mapM (fieldExpression self) with
      | none => failure
      | some found => node .expression start found

/-- What stands between round brackets: a tuple, a generator, or an expression by itself. -/
def roundBrackets (self : Grammar) : Rule Node := do
  let start ← place
  symbol "("
  if ← acceptSymbol ")" then node .tuple start []
  else if ← atKeyword "yield" then
    let found ← yieldExpression self
    symbol ")"
    pure found
  else
    let first ← starNamedExpression self
    let isStarred := match first.kind with
      | .starred => true
      | _ => false
    if ← atClause then
      refuseIf isStarred
      let found ← clauses self
      symbol ")"
      node .expression start (first :: found)
    else if ← atSymbol "," then
      let (nodes, _) ← itemsAfter first (starNamedExpression self)
      symbol ")"
      node .tuple start nodes
    else
      refuseIf isStarred
      symbol ")"
      pure first

/-- What stands between square brackets: a list or a comprehension. -/
def squareBrackets (self : Grammar) : Rule Node := do
  let start ← place
  symbol "["
  if ← acceptSymbol "]" then node .list start []
  else
    let first ← starNamedExpression self
    if ← atClause then
      match first.kind with
      | .starred => failure
      | _ =>
          let found ← clauses self
          symbol "]"
          node .expression start (first :: found)
    else
      let (nodes, _) ← itemsAfter first (starNamedExpression self)
      symbol "]"
      node .list start nodes

/-- A key with its value, or a mapping to be merged: its keys and its values. -/
def entry (self : Grammar) : Rule (List Node × Node) := do
  if ← acceptSymbol "**" then
    let value ← self .bitwise
    pure ([], value)
  else
    let key ← self .expression
    symbol ":"
    let value ← self .expression
    pure ([key], value)

/-- The rest of a dictionary after its first entry. -/
def dictionary (self : Grammar) (start : Position) (first : List Node × Node) : Rule Node := do
  let (entries, _) ← itemsAfter first (entry self)
  symbol "\x7d"
  node .expression start (entries.flatMap (·.1) ++ entries.map (·.2))

/-- What stands between curly brackets: a dictionary, a set or a comprehension. -/
def curlyBrackets (self : Grammar) : Rule Node := do
  let start ← place
  symbol "\x7b"
  if ← acceptSymbol "\x7d" then node .expression start []
  else if ← atSymbol "**" then dictionary self start (← entry self)
  else
    let isBinding ← beforeSymbol ":="
    let first ← starNamedExpression self
    let isStarred := match first.kind with
      | .starred => true
      | _ => false
    if ← acceptSymbol ":" then
      refuseIf (isBinding || isStarred)
      let value ← self .expression
      if ← atClause then
        let found ← clauses self
        symbol "\x7d"
        node .expression start (first :: value :: found)
      else dictionary self start ([first], value)
    else if ← atClause then
      refuseIf isStarred
      let found ← clauses self
      symbol "\x7d"
      node .expression start (first :: found)
    else
      let (nodes, _) ← itemsAfter first (starNamedExpression self)
      symbol "\x7d"
      node .expression start nodes

/-- An expression without operators. -/
def atom (self : Grammar) : Rule Node := do
  let start ← place
  match ← next with
  | .name id =>
      skip
      node (.name id) start []
  | .number _ =>
      skip
      node .expression start []
  | .string _ => strings self
  | .keyword word =>
      demand (["True", "False", "None"].contains word)
      skip
      node .expression start []
  | .op symbol =>
      if symbol = "(" then roundBrackets self
      else if symbol = "[" then squareBrackets self
      else if symbol = "\x7b" then curlyBrackets self
      else if symbol = "..." then
        skip
        node .expression start []
      else failure
  | _ => failure

/-! ## Operators -/

/-- An atom with attributes, calls and subscripts. -/
def primary (self : Grammar) : Rule Node := do
  let start ← place
  let first ← atom self
  trailers self start (← get).limit first

/-- A power, whose base may be awaited. -/
def power (self : Grammar) : Rule Node := do
  let start ← place
  let base ← if ← acceptKeyword "await" then do
      let awaited ← self .primary
      node .expression start [awaited]
    else primary self
  if ← acceptSymbol "**" then
    let exponent ← self .factor
    node .expression start [base, exponent]
  else pure base

/-- A power with signs before it. -/
def factor (self : Grammar) : Rule Node := do
  let start ← place
  match ← next with
  | .op symbol =>
      if symbol = "+" ∨ symbol = "-" ∨ symbol = "~" then
        skip
        let operand ← self .factor
        node .expression start [operand]
      else power self
  | _ => power self

/-- Operands with operators between them, grouped to the left. -/
def leftChain (operators : List String) (operand : Rule Node) : Rule Node := do
  let start ← place
  let first ← operand
  let rest ← repeatWhile (atOperator operators) do
    skip
    let right ← operand
    pure (right, (← get).lastStop)
  pure (rest.foldl (fun left (right, stop) => .mk .expression start stop [left, right]) first)
where
  atOperator (operators : List String) : Rule Bool := do
    match ← next with
    | .op symbol => pure (operators.contains symbol)
    | _ => pure false

/-- The operators on numbers and bits, from loose to tight. -/
def binaryOperators : List (List String) :=
  [["|"], ["^"], ["&"], ["<<", ">>"], ["+", "-"], ["*", "/", "//", "%", "@"]]

/-- Operands with operators on numbers and bits. -/
def bitwise (self : Grammar) : Rule Node :=
  binaryOperators.foldr leftChain (factor self)

/-- Whether an operator of comparison comes next, and of how many tokens it consists. -/
def comparisonWidth : Rule Nat := do
  match ← next with
  | .op symbol => pure (if ["==", "!=", "<", "<=", ">", ">="].contains symbol then 1 else 0)
  | .keyword "in" => pure 1
  | .keyword "is" =>
      match ← nextButOne with
      | .keyword "not" => pure 2
      | _ => pure 1
  | .keyword "not" =>
      match ← nextButOne with
      | .keyword "in" => pure 2
      | _ => pure 0
  | _ => pure 0

/-- A chain of comparisons. -/
def comparison (self : Grammar) : Rule Node := do
  let start ← place
  let first ← bitwise self
  let rest ← repeatWhile (do pure ((← comparisonWidth) != 0)) do
    if (← comparisonWidth) = 2 then skip
    skip
    bitwise self
  if rest.isEmpty then pure first else node .expression start (first :: rest)

/-- A comparison with negations before it. -/
def inversion (self : Grammar) : Rule Node := do
  let start ← place
  if ← acceptKeyword "not" then
    let operand ← self .inversion
    node .expression start [operand]
  else comparison self

/-- Operands with one word between them. -/
def booleanChain (word : String) (operand : Rule Node) : Rule Node := do
  let start ← place
  let first ← operand
  let rest ← repeatWhile (atKeyword word) do
    skip
    operand
  if rest.isEmpty then pure first
  else node (.boolean (rest.length + 1)) start (first :: rest)

/-- Alternatives of conjunctions. -/
def disjunction (self : Grammar) : Rule Node :=
  booleanChain "or" (booleanChain "and" (inversion self))

/-- Any expression: a lambda, a choice between two values, or a disjunction. -/
def expression (self : Grammar) : Rule Node := do
  let start ← place
  if ← atKeyword "lambda" then lambdaExpression self
  else
    let first ← disjunction self
    if ← acceptKeyword "if" then
      let condition ← self .disjunction
      keyword "else"
      let other ← self .expression
      node .conditional start [condition, first, other]
    else pure first

/-- The rule of each goal over a grammar for what is inside. -/
def rules (self : Grammar) : Grammar
  | .expression => expression self
  | .disjunction => disjunction self
  | .inversion => inversion self
  | .bitwise => bitwise self
  | .factor => factor self
  | .primary => primary self

/-- The grammar of expressions that are nested at most so deep. -/
def grammar : (depth : Nat) → Grammar
  | 0 => fun _ => failure
  | depth + 1 => rules (grammar depth)

end Syntax
end CodeQuality
