import CodeQuality.Syntax.Tree

namespace CodeQuality
namespace Syntax

/-!
Rules over tokens.

A rule either takes tokens from the front of the remaining ones and gives a value,
or refuses.  Beside the remaining tokens a rule sees where the last token with text
ended, because that is where a node ends.  Repetitions are bounded by the number of
all tokens, since each of them takes one.
-/

/-- What is left to read, where the last token with text ended, and how often a rule is repeated
at most. -/
structure Remaining where
  tokens : List Token
  lastStop : Position
  limit : Nat

/-- All tokens are left to read. -/
def Remaining.all (tokens : List Token) (place : Position) : Remaining :=
  ⟨tokens, place, tokens.length + 1⟩

/-- A grammar rule. -/
abbrev Rule (α : Type) := StateT Remaining Option α

namespace Rule

/-- The shape of the next token. -/
def next : Rule Shape := do
  match (← get).tokens with
  | token :: _ => pure token.shape
  | [] => failure

/-- The shape of the token after the next one. -/
def nextButOne : Rule Shape := do
  match (← get).tokens with
  | _ :: token :: _ => pure token.shape
  | _ => pure .finish

/-- Where the next token starts. -/
def place : Rule Position := do
  match (← get).tokens with
  | token :: _ => pure token.start
  | [] => failure

/-- Take the next token. -/
def skip : Rule Unit := do
  let remaining ← get
  match remaining.tokens with
  | token :: rest =>
      set { remaining with
        tokens := rest
        lastStop := if token.shape.isText then token.stop else remaining.lastStop }
  | [] => failure

/-- Whether the next token is this symbol. -/
def atSymbol (symbol : String) : Rule Bool := do
  match ← next with
  | .op found => pure (found == symbol)
  | _ => pure false

/-- Whether the next token is this keyword. -/
def atKeyword (word : String) : Rule Bool := do
  match ← next with
  | .keyword found => pure (found == word)
  | _ => pure false

/-- Whether the next token is this name. -/
def atName (word : String) : Rule Bool := do
  match ← next with
  | .name found => pure (found == word)
  | _ => pure false

/-- Whether the token after the next one is this symbol. -/
def beforeSymbol (symbol : String) : Rule Bool := do
  match ← nextButOne with
  | .op found => pure (found == symbol)
  | _ => pure false

/-- Take this symbol if it is next, and say whether it was. -/
def acceptSymbol (symbol : String) : Rule Bool := do
  if ← atSymbol symbol then
    skip
    pure true
  else pure false

/-- Take this keyword if it is next, and say whether it was. -/
def acceptKeyword (word : String) : Rule Bool := do
  if ← atKeyword word then
    skip
    pure true
  else pure false

/-- Take this symbol. -/
def symbol (symbol : String) : Rule Unit := do
  if ← acceptSymbol symbol then pure () else failure

/-- Take this keyword. -/
def keyword (word : String) : Rule Unit := do
  if ← acceptKeyword word then pure () else failure

/-- Take a name. -/
def name : Rule String := do
  match ← next with
  | .name id =>
      skip
      pure id
  | _ => failure

/-- Take a token of layout. -/
def layout (isWanted : Shape → Bool) : Rule Unit := do
  if isWanted (← next) then skip else failure

/-- Refuse when a condition holds. -/
def refuseIf (condition : Bool) : Rule Unit :=
  if condition then failure else pure ()

/-- Go on only when a condition holds. -/
def demand (condition : Bool) : Rule Unit :=
  refuseIf (!condition)

/-- The node of a construct that started at a place and ends with the last token taken. -/
def node (kind : Kind) (start : Position) (children : List Node) : Rule Node := do
  pure (.mk kind start (← get).lastStop children)

/-- Repeat a rule at most so many times, as long as a condition on what is left holds. -/
def repeatUpTo (goesOn : Rule Bool) (rule : Rule α) : (bound : Nat) → Rule (List α)
  | 0 => failure
  | bound + 1 => do
      if ← goesOn then
        let first ← rule
        let rest ← repeatUpTo goesOn rule bound
        pure (first :: rest)
      else pure []

/-- Repeat a rule as long as a condition on what is left holds.  A repetition that takes no token
would not end and is refused. -/
def repeatWhile (goesOn : Rule Bool) (rule : Rule α) : Rule (List α) := do
  repeatUpTo goesOn rule (← get).limit

/-- Try a rule, and take nothing if it refuses. -/
def attempt (rule : Rule α) : Rule (Option α) :=
  (some <$> rule) <|> pure none

/-- The items after the first of a list with commas.  A comma that no item follows ends it. -/
def moreItems (rule : Rule α) : (bound : Nat) → Rule (List α)
  | 0 => failure
  | bound + 1 => do
      if ← acceptSymbol "," then
        match ← attempt rule with
        | some item =>
            let rest ← moreItems rule bound
            pure (item :: rest)
        | none => pure []
      else pure []

/-- The items of a list with commas after a given first one, and whether there was any comma. -/
def itemsAfter (first : α) (rule : Rule α) : Rule (List α × Bool) := do
  let hasComma ← atSymbol ","
  let rest ← moreItems rule (← get).limit
  pure (first :: rest, hasComma)

/-- A list with commas between its items and perhaps after the last one, and whether there was
any comma. -/
def items (rule : Rule α) : Rule (List α × Bool) := do
  itemsAfter (← rule) rule

/-- A list with commas between its items and none after the last one. -/
def strictItems (rule : Rule α) : Rule (List α) := do
  let first ← rule
  let rest ← repeatWhile (atSymbol ",") do
    skip
    rule
  pure (first :: rest)

end Rule

end Syntax
end CodeQuality
