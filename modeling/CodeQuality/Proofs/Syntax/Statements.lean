import CodeQuality.Proofs.Syntax.Expressions
import CodeQuality.Syntax.Source

namespace CodeQuality
namespace Syntax

open Rule Syntax.Node

/-!
The trees of whole texts tell what is called.

Patterns and statements build no calls of their own.  Their trees are put together from
trees of expressions, so what is known of those passes on to the tree of a text.
-/

/-! ## Patterns -/

/-- Rules for patterns whose trees tell what is called. -/
structure PatternGrammar.IsFaithful (given : PatternGrammar) : Prop where
  pattern : Yields given.pattern Faithful
  strings : Yields given.strings Faithful

theorem yields_signedNumber : Yields signedNumber Faithful := by
  refine .after fun start => .after fun _ => .after fun isImaginary => .after fun _ => ?_
  have onward : ∀ isSum : Bool, Yields (do
      if isSum then
        refuseIf isImaginary
        skip
        demand (← numberToken)
      node .expression start []) Faithful := by
    intro isSum
    refine .ite ?_ (yields_node trivial .nil)
    exact .after fun _ => .after fun _ => .after fun _ => .after fun _ => yields_node trivial .nil
  exact .ite (.after onward) (.after onward)

section

variable {self : PatternGrammar}

theorem yields_literalPattern (inner : self.IsFaithful) :
    Yields (literalPattern self) Faithful := by
  refine .after fun start => .after fun shape => ?_
  split
  next => exact yields_signedNumber
  next => exact inner.strings
  next => exact .after fun _ => .after fun _ => yields_node trivial .nil
  next => exact .ite yields_signedNumber .failure
  next => exact .failure

theorem yields_sequenceItem (inner : self.IsFaithful) : Yields (sequenceItem self) Faithful := by
  refine .after fun start => .after fun _ => .ite (.after fun _ => ?_) inner.pattern
  exact .ite (.after fun _ => yields_node trivial .nil) (.after fun _ => yields_node trivial .nil)

theorem yields_classItem (inner : self.IsFaithful) :
    Yields (classItem self) fun found => found.2.Faithful := by
  have item : ∀ isNamed : Bool, Yields (do
      let found ← self.pattern
      pure (isNamed, found)) fun found => found.2.Faithful :=
    fun _ => inner.pattern.bind fun _ found => .pure found
  refine .after fun shape => ?_
  split
  next => exact .after fun _ => .ite (.after fun _ => .after fun _ => item true) (item false)
  next => exact item false

theorem yields_classPattern (inner : self.IsFaithful) (start : Position) :
    Yields (classPattern self start) Faithful := by
  refine .after fun _ => .ite (yields_node trivial .nil) ?_
  exact (yields_classItem inner).items.bind fun _ found => .after fun _ => .after fun _ =>
    yields_node trivial (List.forall_mem_map.mpr found)

/-- The trees of an entry of a mapping tell what is called. -/
def IsFaithfulItem (item : Option (Node × Node)) : Prop :=
  ∀ entry ∈ item, entry.1.Faithful ∧ entry.2.Faithful

theorem yields_mappingItem (inner : self.IsFaithful) :
    Yields (mappingItem self) IsFaithfulItem := by
  refine .after fun start => .after fun _ => .ite (.after fun _ => .pure ?_) ?_
  · exact fun entry absent => absurd absent (Option.not_mem_none entry)
  · have onward : ∀ key : Node, key.Faithful → Yields (do
        symbol ":"
        let found ← self.pattern
        pure (some (key, found))) IsFaithfulItem := by
      intro key faithful
      refine .after fun _ => inner.pattern.bind fun _ found => .pure fun entry same => ?_
      exact Option.some.inj same ▸ ⟨faithful, found⟩
    refine .after fun shape => ?_
    split
    next => exact .after fun _ => .after fun _ => .bind (yields_node trivial .nil) onward
    next => exact (yields_literalPattern inner).bind onward

theorem yields_mappingPattern (inner : self.IsFaithful) (start : Position) :
    Yields (mappingPattern self start) Faithful := by
  refine .after fun _ => .ite (yields_node trivial .nil) ?_
  refine (yields_mappingItem inner).items.bind fun found faithful => ?_
  refine .after fun _ => .after fun _ => ?_
  have entries : ∀ entry ∈ found.1.filterMap id, entry.1.Faithful ∧ entry.2.Faithful := by
    intro entry member
    rcases List.mem_filterMap.mp member with ⟨item, listed, same⟩
    exact faithful item listed entry same
  refine yields_node trivial (.append ?_ ?_)
  · exact List.forall_mem_map.mpr fun entry listed => (entries entry listed).1
  · exact List.forall_mem_map.mpr fun entry listed => (entries entry listed).2

theorem yields_closedPattern (inner : self.IsFaithful) : Yields (closedPattern self) Faithful := by
  have sequence := (yields_sequenceItem inner).items
  refine .after fun start => .after fun shape => ?_
  split
  next =>
    refine .ite (.after fun _ => yields_node trivial .nil) (.after fun _ => .after fun _ => ?_)
    refine .ite (yields_classPattern inner start) ?_
    exact .after fun _ => .after fun _ => yields_node trivial .nil
  next =>
    refine .ite ?_ (.ite ?_ (.ite ?_ (yields_literalPattern inner)))
    · refine .after fun _ => .after fun _ => .ite (yields_node trivial .nil) (.after fun _ => ?_)
      exact sequence.bind fun _ found => .after fun _ => .after fun _ => yields_node trivial found
    · refine .after fun _ => .after fun _ => .ite (yields_node trivial .nil) ?_
      exact sequence.bind fun _ found => .after fun _ => yields_node trivial found
    · exact .after fun _ => yields_mappingPattern inner start
  next => exact yields_literalPattern inner

theorem yields_patternRule (inner : self.IsFaithful) : Yields (patternRule self) Faithful := by
  refine .after fun start => (yields_closedPattern inner).bind fun _ first => ?_
  refine (Yields.repeatWhile _ (.after fun _ => yields_closedPattern inner)).bind fun _ rest => ?_
  have alternatives := AllFaithful.cons first rest
  exact .after fun _ => .ite (.after fun _ => yields_node trivial alternatives)
    (yields_node trivial alternatives)

end

theorem yields_pattern {strings : Rule Node} (inner : Yields strings Faithful) (depth : Nat) :
    Yields (pattern strings depth) Faithful := by
  induction depth with
  | zero => exact .failure
  | succ depth ih => exact yields_patternRule ⟨ih, inner⟩

theorem yields_casePattern {strings : Rule Node} (inner : Yields strings Faithful)
    (depth : Nat) : Yields (casePattern strings depth) Faithful := by
  have item : Yields (sequenceItem ⟨pattern strings depth, strings⟩) Faithful :=
    yields_sequenceItem ⟨yields_pattern inner depth, inner⟩
  refine .after fun start => .after fun _ => item.items.bind fun _ found => ?_
  exact .after fun _ => yields_node trivial found

/-! ## Simple statements -/

section

variable {self : Grammar}

theorem yields_assigned (inner : self.IsFaithful) (bound : Nat) :
    Yields (assigned self bound) AllFaithful := by
  induction bound with
  | zero => exact .failure
  | succ bound ih =>
      refine .after fun _ => .after fun _ => .ite ?_ ?_
      · exact (yields_yieldExpression inner).bind fun _ value => .pure value.only
      · refine (yields_starExpressions inner).bind fun _ value => .after fun _ => ?_
        refine .ite (.after fun _ => ?_) (.pure value.only)
        exact ih.bind fun _ rest => .pure (.cons value rest)

theorem yields_expressionStatement (inner : self.IsFaithful) :
    Yields (expressionStatement self) Faithful := by
  have values := yields_yieldOrExpressions inner
  refine .after fun start => (yields_starExpressions inner).bind fun _ first => ?_
  refine .after fun _ => .ite (.after fun _ => .after fun remaining => ?_)
    (.after fun _ => .ite (.after fun _ => ?_) (.after fun _ => .ite ?_ ?_))
  · exact (yields_assigned inner remaining.limit).bind fun _ rest =>
      yields_node trivial (.cons first rest)
  · exact (inner _).bind fun _ typed => .after fun _ => yields_optional values fun _ value =>
      yields_node trivial (.cons first (.cons typed value))
  · exact .after fun _ => .after fun _ => values.bind fun _ value =>
      yields_node trivial (.cons first value.only)
  · exact yields_node trivial first.only

theorem yields_importStatement : Yields importStatement Faithful :=
  .after fun _ => .after fun _ => .after fun _ => yields_node trivial .nil

theorem yields_fromStatement : Yields fromStatement Faithful := by
  refine .after fun start => .after fun _ => .after fun dots => .after fun _ => ?_
  have onward : ∀ source : Option String, Yields (do
      keyword "import"
      let names ← importedNames
      node (.imports source names) start []) Faithful :=
    fun _ => .after fun _ => .after fun _ => yields_node trivial .nil
  exact .ite (.after fun _ => .after onward) (.after onward)

theorem yields_deletion (inner : self.IsFaithful) : Yields (deletion self) Faithful :=
  .after fun _ => .after fun _ => (inner _).items.bind fun _ targets => .after fun _ =>
    yields_node trivial targets

theorem yields_assertion (inner : self.IsFaithful) : Yields (assertion self) Faithful :=
  .after fun _ => .after fun _ => (inner _).bind fun _ condition => .after fun _ =>
    yields_optional (inner _) fun _ message => yields_node trivial (.cons condition message)

theorem yields_raiseStatement (inner : self.IsFaithful) :
    Yields (raiseStatement self) Faithful := by
  refine .after fun start => .after fun _ => .after fun _ => .ite (yields_node trivial .nil) ?_
  exact (inner _).bind fun _ raised => .after fun _ =>
    yields_optional (inner _) fun _ cause => yields_node trivial (.cons raised cause)

theorem yields_simpleStatement (inner : self.IsFaithful) :
    Yields (simpleStatement self) Faithful := by
  refine .after fun start => .after fun shape => ?_
  split
  next =>
    refine .ite (.after fun _ => yields_node trivial .nil) (.ite (.after fun _ => ?_) ?_)
    · refine .after fun _ => .ite (yields_node trivial .nil) ?_
      exact (yields_starExpressions inner).bind fun _ value => yields_node trivial value.only
    · refine .ite yields_importStatement (.ite yields_fromStatement ?_)
      refine .ite (yields_deletion inner) (.ite (yields_assertion inner) ?_)
      refine .ite (yields_raiseStatement inner) (.ite ?_ (.ite ?_ ?_))
      · exact .after fun _ => .after fun _ => yields_node trivial .nil
      · exact (yields_yieldExpression inner).bind fun _ value => yields_node trivial value.only
      · exact yields_expressionStatement inner
  next => exact yields_expressionStatement inner

theorem yields_moreSimpleStatements (inner : self.IsFaithful) (bound : Nat) :
    Yields (moreSimpleStatements self bound) AllFaithful := by
  induction bound with
  | zero => exact .failure
  | succ bound ih =>
      refine .after fun shape => ?_
      split
      next => exact .after fun _ => .pure .nil
      next =>
        refine .after fun _ => .after fun shape => ?_
        split
        next => exact .after fun _ => .pure .nil
        next =>
          exact (yields_simpleStatement inner).bind fun _ first => ih.bind fun _ rest =>
            .pure (.cons first rest)
      next => exact .failure

theorem yields_simpleStatements (inner : self.IsFaithful) :
    Yields (simpleStatements self) AllFaithful :=
  (yields_simpleStatement inner).bind fun _ first => .after fun remaining =>
    (yields_moreSimpleStatements inner remaining.limit).bind fun _ rest => .pure (.cons first rest)

end

/-! ## Blocks and compound statements -/

/-- Rules for statements whose trees tell what is called. -/
structure StatementGrammar.IsFaithful (given : StatementGrammar) : Prop where
  expressions : given.expressions.IsFaithful
  patterns : Yields given.patterns Faithful
  statement : Yields given.statement AllFaithful

section

variable {self : StatementGrammar}

theorem yields_block (inner : self.IsFaithful) : Yields (block self) AllFaithful := by
  refine .after fun shape => .ite ?_ (yields_simpleStatements inner.expressions)
  refine .after fun _ => .after fun _ => inner.statement.bind fun _ first => ?_
  exact (inner.statement.repeatWhile _).bind fun _ rest => .after fun _ =>
    .pure (first.append (.flatten rest))

theorem yields_body (inner : self.IsFaithful) : Yields (body self) AllFaithful :=
  .after fun _ => yields_block inner

theorem yields_otherwise (inner : self.IsFaithful) (word : String) :
    Yields (otherwise self word) fun found => AllFaithful (found.getD []) :=
  .after fun _ => .ite ((yields_body inner).map fun _ nodes => nodes) (.pure .nil)

theorem yields_branch (inner : self.IsFaithful) (bound : Nat) (start : Position) :
    Yields (branch self bound start) Faithful := by
  induction bound generalizing start with
  | zero => exact .failure
  | succ bound ih =>
      refine (yields_namedExpression inner.expressions).bind fun _ condition => ?_
      refine (yields_body inner).bind fun _ inside => .after fun _ => .ite ?_ ?_
      · exact .after fun place => .after fun _ => (ih place).bind fun _ other =>
          yields_node trivial (.append (.cons condition inside) other.only)
      · exact (yields_otherwise inner "else").bind fun _ other =>
          yields_node trivial (.append (.cons condition inside) other)

theorem yields_whileStatement (inner : self.IsFaithful) :
    Yields (whileStatement self) Faithful := by
  refine .after fun start => .after fun _ => ?_
  refine (yields_namedExpression inner.expressions).bind fun _ condition => ?_
  refine (yields_body inner).bind fun _ inside => ?_
  exact (yields_otherwise inner "else").bind fun _ other =>
    yields_node trivial (.append (.cons condition inside) other)

theorem yields_forStatement (inner : self.IsFaithful) (start : Position) :
    Yields (forStatement self start) Faithful := by
  refine .after fun _ => (yields_targetList inner.expressions).bind fun _ target => ?_
  refine .after fun _ => (yields_starExpressions inner.expressions).bind fun _ source => ?_
  refine (yields_body inner).bind fun _ inside => ?_
  exact (yields_otherwise inner "else").bind fun _ other =>
    yields_node trivial (.append (.cons target (.cons source inside)) other)

theorem yields_withItem (inner : self.IsFaithful) : Yields (withItem self) Faithful := by
  refine .after fun start => (inner.expressions _).bind fun _ context => .after fun _ => .ite ?_ ?_
  · exact (yields_targetItem inner.expressions).bind fun _ target => .after fun _ =>
      yields_node trivial (.cons context target.only)
  · exact yields_node trivial context.only

theorem yields_bracketedItems (inner : self.IsFaithful) :
    Yields (bracketedItems self) AllFaithful :=
  .after fun _ => (yields_withItem inner).items.bind fun _ found => .after fun _ =>
    .after fun _ => .after fun _ => .pure found

theorem yields_withStatement (inner : self.IsFaithful) (start : Position) :
    Yields (withStatement self start) Faithful := by
  have items : Yields (bracketedItems self <|> strictItems (withItem self)) AllFaithful :=
    (yields_bracketedItems inner).orElse (yields_withItem inner).strictItems
  refine .after fun _ => items.bind fun _ found => ?_
  exact (yields_body inner).bind fun _ inside => yields_node trivial (found.append inside)

theorem yields_handler (inner : self.IsFaithful) :
    Yields (handler self) fun found => found.2.Faithful := by
  refine .after fun start => .after fun _ => .after fun isGroup => .after fun _ => .ite ?_ ?_
  · exact .after fun _ => (yields_body inner).bind fun _ inside =>
      .bind (yields_node trivial inside) fun _ found => .pure found
  · refine (inner.expressions _).bind fun caught faithful => .after fun _ => ?_
    have onward : Yields (do
        let inside ← body self
        let found ← node .part start (caught :: inside)
        pure (isGroup, found)) fun found => found.2.Faithful :=
      (yields_body inner).bind fun _ inside =>
        .bind (yields_node trivial (.cons faithful inside)) fun _ found => .pure found
    exact .ite (.after fun _ => onward) onward

theorem yields_tryStatement (inner : self.IsFaithful) : Yields (tryStatement self) Faithful := by
  refine .after fun start => .after fun _ => (yields_body inner).bind fun inside block => ?_
  refine ((yields_handler inner).repeatWhile _).bind fun handlers handled => ?_
  have trees : AllFaithful (handlers.map (·.2)) := List.forall_mem_map.mpr handled
  have onward : ∀ other : Option (List Node), AllFaithful (other.getD []) → Yields (do
      let final ← otherwise self "finally"
      refuseIf (handlers.isEmpty && final.isNone)
      let areGroups := handlers.map (·.1)
      refuseIf (areGroups.contains true && areGroups.contains false)
      let kind := if areGroups.contains true then .statement
        else .attempt handlers.length other.isSome
      node kind start (inside ++ handlers.map (·.2) ++ other.getD [] ++ final.getD []))
      Faithful := by
    intro other alternative
    refine (yields_otherwise inner "finally").bind fun _ final => .after fun _ => .after fun _ => ?_
    refine yields_node ?_ (((block.append trees).append alternative).append final)
    split
    next => trivial
    next => trivial
  exact .ite (.bind (.pure .nil) onward) ((yields_otherwise inner "else").bind onward)

theorem yields_classStatement (inner : self.IsFaithful) {decorators : List Node}
    (decorated : AllFaithful decorators) : Yields (classStatement self decorators) Faithful := by
  refine .after fun start => .after fun _ => .after fun id => .after fun _ => ?_
  have onward : ∀ arguments, AllFaithful arguments → Yields (do
      let inside ← body self
      node (.classDefinition id) start (arguments ++ inside ++ decorators)) Faithful :=
    fun _ arguments => (yields_body inner).bind fun _ inside =>
      yields_node trivial ((arguments.append inside).append decorated)
  exact .ite ((yields_classArguments inner.expressions).bind onward) (.bind (.pure .nil) onward)

theorem yields_functionStatement (inner : self.IsFaithful) (start : Position) (isAsync : Bool)
    {decorators : List Node} (decorated : AllFaithful decorators) :
    Yields (functionStatement self start isAsync decorators) Faithful := by
  refine .after fun _ => .after fun _ => .after fun _ => ?_
  refine (yields_parameterList inner.expressions).bind fun _ parameters => ?_
  refine .after fun _ => .after fun _ => yields_optional (inner.expressions _) fun _ result => ?_
  exact (yields_body inner).bind fun _ inside =>
    yields_node trivial (.append (.append (.cons parameters inside) decorated) result)

theorem yields_caseBlock (inner : self.IsFaithful) : Yields (caseBlock self) Faithful := by
  refine .after fun start => .after fun _ => .after fun _ => .after fun _ => ?_
  refine inner.patterns.bind fun _ pattern => .after fun _ => ?_
  refine yields_optional (yields_namedExpression inner.expressions) fun _ guard => ?_
  exact (yields_body inner).bind fun _ inside =>
    yields_node trivial (.append (.cons pattern guard) inside)

theorem yields_matchStatement (inner : self.IsFaithful) :
    Yields (matchStatement self) Faithful := by
  refine .after fun start => .after fun _ => .after fun _ => .after fun _ => ?_
  refine .after fun subjectStart => .after fun _ => ?_
  refine (yields_starNamedExpression inner.expressions).items.bind fun _ subjects => ?_
  refine .after fun _ => (yields_bareList subjectStart subjects).bind fun _ subject => ?_
  refine .after fun _ => .after fun _ => .after fun _ => ?_
  refine (yields_caseBlock inner).bind fun _ first => ?_
  refine ((yields_caseBlock inner).repeatWhile _).bind fun _ rest => .after fun _ => ?_
  exact yields_node trivial (.cons subject (.cons first rest))

theorem yields_decorator (inner : self.IsFaithful) : Yields (decorator self) Faithful :=
  .after fun _ => (yields_namedExpression inner.expressions).bind fun _ found => .after fun _ =>
    .pure found

theorem yields_decorated (inner : self.IsFaithful) : Yields (decorated self) Faithful := by
  refine ((yields_decorator inner).repeatWhile _).bind fun _ decorators => ?_
  refine .after fun start => .after fun _ => .ite (yields_classStatement inner decorators) ?_
  exact .after fun _ => .ite (yields_functionStatement inner start true decorators)
    (yields_functionStatement inner start false decorators)

theorem yields_asyncStatement (inner : self.IsFaithful) :
    Yields (asyncStatement self) Faithful := by
  refine .after fun start => .after fun _ => .after fun _ => ?_
  refine .ite (yields_functionStatement inner start true .nil) (.after fun _ => ?_)
  exact .ite (yields_withStatement inner start) (yields_forStatement inner start)

theorem yields_statementRule (inner : self.IsFaithful) :
    Yields (statementRule self) AllFaithful := by
  have one : ∀ {rule : Rule Node}, Yields rule Faithful →
      Yields (do pure [← rule]) AllFaithful :=
    fun yields => yields.bind fun _ tree => .pure tree.only
  have simple := yields_simpleStatements inner.expressions
  refine .after fun start => .after fun shape => ?_
  split
  next =>
    refine .ite (.after fun _ => .after fun remaining => ?_) ?_
    · exact one (yields_branch inner remaining.limit start)
    · refine .ite (one (yields_whileStatement inner)) ?_
      refine .ite (one (yields_forStatement inner start)) ?_
      refine .ite (one (yields_tryStatement inner)) ?_
      refine .ite (one (yields_withStatement inner start)) ?_
      refine .ite (one (yields_functionStatement inner start false .nil)) ?_
      refine .ite (one (yields_classStatement inner .nil)) ?_
      exact .ite (one (yields_asyncStatement inner)) simple
  next => exact one (yields_decorated inner)
  next => exact (one (yields_matchStatement inner)).orElse simple
  next => exact simple

end

/-! ## Whole texts -/

theorem yields_statement {expressions : Grammar} {patterns : Rule Node}
    (inner : expressions.IsFaithful) (cases : Yields patterns Faithful) (depth : Nat) :
    Yields (statement expressions patterns depth) AllFaithful := by
  induction depth with
  | zero => exact .failure
  | succ depth ih => exact yields_statementRule ⟨inner, cases, ih⟩

theorem yields_moduleRule (depth : Nat) : Yields (moduleRule depth) Faithful := by
  have inner := isFaithful_grammar depth
  have patterns := yields_casePattern (yields_strings inner) depth
  exact ((yields_statement inner patterns depth).repeatWhile _).bind fun _ found =>
    yields_node trivial (.flatten found)

/-- In the syntax tree of a text every call tells what is called. -/
theorem faithful_of_tree? {text : List Char} {tree : Node} (read : tree? text = some tree) :
    tree.Faithful := by
  rcases Option.bind_eq_some_iff.mp read with ⟨tokens, _, ran⟩
  split at ran
  next parsed =>
    cases ran
    exact yields_moduleRule _ _ _ _ parsed
  next => cases ran

theorem faithful_of_parse {reader : Reader} {source : List Char} {tree : Node}
    (parsed : reader.parse source = .ok tree) : tree.Faithful := by
  unfold Reader.parse at parsed
  split at parsed
  next => cases parsed
  next =>
    split at parsed
    next read =>
      split at parsed
      next => cases parsed
      next =>
        cases parsed
        exact faithful_of_tree? read
    next => cases parsed

end Syntax
end CodeQuality
