import CodeQuality.Proofs.Syntax.Rules

namespace CodeQuality
namespace Syntax

open Rule Syntax.Node

/-!
The trees of expressions tell what is called.

There is one place where calls are built: behind an expression that has been read
already, which becomes their first child.  Every other rule passes on trees that it has
got from others, or puts them below a node that is not a call.
-/

/-- A grammar whose trees tell what is called. -/
def Grammar.IsFaithful (self : Grammar) : Prop := ∀ goal, Yields (self goal) Faithful

section

variable {self : Grammar} {rule : Rule Node}

theorem yields_bareList (start : Position) {found : List Node × Bool}
    (faithful : AllFaithful found.1) : Yields (bareList start found) Faithful := by
  unfold bareList
  split
  next only => exact .pure (faithful only (List.mem_singleton_self only))
  next => exact yields_node trivial faithful

theorem yields_starredOf (inner : Yields rule Faithful) : Yields (starredOf rule) Faithful :=
  .after fun _ => .after fun _ => inner.bind fun _ child => yields_node trivial child.only

theorem yields_namedExpression (inner : self.IsFaithful) :
    Yields (namedExpression self) Faithful := by
  refine .after fun start => .after fun shape => ?_
  split
  next id =>
    refine .after fun _ => .ite (.after fun _ => ?_) (inner _)
    exact .bind (yields_node trivial .nil) fun _ target => .after fun _ =>
      (inner _).bind fun _ value => yields_node trivial (.cons target value.only)
  next => exact inner _

theorem yields_starExpression (inner : self.IsFaithful) : Yields (starExpression self) Faithful :=
  .after fun _ => .ite (yields_starredOf (inner _)) (inner _)

theorem yields_starNamedExpression (inner : self.IsFaithful) :
    Yields (starNamedExpression self) Faithful :=
  .after fun _ => .ite (yields_starredOf (inner _)) (yields_namedExpression inner)

theorem yields_starExpressions (inner : self.IsFaithful) : Yields (starExpressions self) Faithful :=
  .after fun start => (yields_starExpression inner).items.bind fun _ found =>
    yields_bareList start found

theorem yields_yieldExpression (inner : self.IsFaithful) :
    Yields (yieldExpression self) Faithful := by
  refine .after fun start => .after fun _ => .after fun _ => .ite ?_ ?_
  · exact (inner _).bind fun _ source => yields_node trivial source.only
  · refine (yields_starExpressions inner).attempt.bind fun value faithful => ?_
    exact yields_node trivial fun node member => faithful node (Option.mem_toList.mp member)

theorem yields_yieldOrExpressions (inner : self.IsFaithful) :
    Yields (yieldOrExpressions self) Faithful :=
  .after fun _ => .ite (yields_yieldExpression inner) (yields_starExpressions inner)

theorem yields_targetItem (inner : self.IsFaithful) : Yields (targetItem self) Faithful :=
  .after fun _ => .ite (yields_starredOf (inner _)) (inner _)

theorem yields_targetList (inner : self.IsFaithful) : Yields (targetList self) Faithful :=
  .after fun start => (yields_targetItem inner).items.bind fun _ found =>
    (yields_bareList start found).bind fun _ target => .after fun _ => .pure target

theorem yields_clause (inner : self.IsFaithful) : Yields (clause self) Faithful := by
  refine .after fun start => .after fun _ => .after fun _ => ?_
  refine (yields_targetList inner).bind fun _ target => .after fun _ => ?_
  refine (inner _).bind fun _ source => ?_
  refine (Yields.repeatWhile _ (.after fun _ => inner _)).bind fun _ conditions => ?_
  exact yields_node trivial (.cons target (.cons source conditions))

theorem yields_clauses (inner : self.IsFaithful) : Yields (clauses self) AllFaithful :=
  (yields_clause inner).bind fun _ first =>
    ((yields_clause inner).repeatWhile atClause).bind fun _ rest => .pure (.cons first rest)

/-! ## Parameters -/

/-- A parameter whose trees tell what is called. -/
structure Parameter.IsFaithful (parameter : Parameter) : Prop where
  tree : parameter.tree.Faithful
  default : ∀ node ∈ parameter.default?, node.Faithful

theorem Parameter.isFaithful_of_tree {form : ParameterForm} {name : String} {tree : Node}
    (faithful : tree.Faithful) : Parameter.IsFaithful ⟨form, name, tree, none⟩ :=
  ⟨faithful, fun node absent => absurd absent (Option.not_mem_none node)⟩

variable {isAnnotated : Bool}

theorem yields_annotations (inner : Yields rule Faithful) :
    Yields ( annotation? isAnnotated rule) AllFaithful :=
  .ite (.pure .nil) (.after fun _ =>
    .ite (inner.bind fun _ found => .pure found.only) (.pure .nil))

theorem yields_parameter (inner : self.IsFaithful) :
    Yields (parameter self isAnnotated) Parameter.IsFaithful := by
  have bare : ∀ {form : ParameterForm} {name : String} {start : Position} {children : List Node},
      AllFaithful children → Yields (do
        let tree ← node .part start children
        pure ⟨form, name, tree, none⟩) Parameter.IsFaithful := by
    intro form name start children found
    exact .bind (yields_node trivial found) fun _ tree => .pure (Parameter.isFaithful_of_tree tree)
  refine .after fun start => .after fun _ => .ite (bare .nil) (.after fun _ => .ite ?_ ?_)
  · exact .after fun _ => (yields_annotations (inner _)).bind fun _ typed => bare typed
  · refine .after fun _ => .ite (.after fun shape => ?_) ?_
    · split
      next =>
        exact .after fun _ => (yields_annotations (yields_starExpression inner)).bind
          fun _ typed => bare typed
      next => exact bare .nil
    · refine .after fun _ => (yields_annotations (inner _)).bind fun _ typed => ?_
      refine .bind (yields_node trivial typed) fun _ tree => .after fun _ => .ite ?_ ?_
      · exact (inner _).bind fun _ value =>
          .pure ⟨tree, fun node same => Option.some.inj same ▸ value⟩
      · exact .pure (Parameter.isFaithful_of_tree tree)

theorem yields_parametersNode (start : Position) {parameters : List Parameter}
    (faithful : ∀ parameter ∈ parameters, parameter.IsFaithful) :
    Yields (parametersNode start parameters) Faithful := by
  have trees : ∀ group : List Parameter, group ⊆ parameters →
      AllFaithful (group.map (·.tree)) := fun group inside =>
    List.forall_mem_map.mpr fun parameter listed => (faithful parameter (inside listed)).tree
  have defaults : ∀ group : List Parameter, group ⊆ parameters →
      AllFaithful (group.filterMap (·.default?)) := by
    intro group inside node member
    rcases List.mem_filterMap.mp member with ⟨parameter, listed, given⟩
    exact (faithful parameter (inside listed)).default node given
  have some : ∀ {group : List Parameter} {isWanted : Parameter → Bool}, group ⊆ parameters →
      group.filter isWanted ⊆ parameters :=
    fun inside _ listed => inside (List.mem_of_mem_filter listed)
  have positional := List.takeWhile_subset (·.form.isPositional) (l := parameters)
  have others := List.dropWhile_subset (·.form.isPositional) (l := parameters)
  refine yields_node trivial (.append (.append (.append (.append (.append ?_ ?_) ?_) ?_) ?_) ?_)
  · exact trees _ (some positional)
  · exact trees _ (some others)
  · exact trees _ (some others)
  · exact defaults _ others
  · exact trees _ (some others)
  · exact defaults _ positional

theorem yields_parameterList {closing : String} (inner : self.IsFaithful) :
    Yields (parameterList self isAnnotated closing) fun found => found.2.Faithful := by
  refine .after fun start => .after fun _ => ?_
  have onward : ∀ found : List Parameter, (∀ parameter ∈ found, parameter.IsFaithful) →
      Yields (do
        demand (inOrder false false false (found.map (·.form)))
        let tree ← parametersNode start found
        pure (flexibleNames found, tree)) fun found => found.2.Faithful := by
    intro found faithful
    exact .after fun _ => (yields_parametersNode start faithful).bind fun _ tree => .pure tree
  refine .ite (.bind (.pure (List.forall_mem_nil _)) onward) ?_
  exact (yields_parameter inner).items.bind fun _ found => .bind (.pure found) onward

theorem yields_lambdaExpression (inner : self.IsFaithful) :
    Yields (lambdaExpression self) Faithful := by
  refine .after fun start => .after fun _ => ?_
  refine (yields_parameterList inner).bind fun _ parameters => .after fun _ => ?_
  exact (inner _).bind fun _ body => yields_node trivial (.cons parameters body.only)

/-! ## Calls and subscripts -/

theorem yields_argument (inner : self.IsFaithful) :
    Yields (argument self) fun found => found.2.Faithful := by
  have given : ∀ {form : ArgumentForm} {start : Position}, Yields (do
      let value ← self .expression
      let found ← node .part start [value]
      pure (form, found)) fun found => found.2.Faithful :=
    (inner _).bind fun _ value =>
      .bind (yields_node trivial value.only) fun _ found => .pure found
  have plain : Yields (do
      let found ← namedExpression self
      pure (ArgumentForm.plain, found)) fun found => found.2.Faithful :=
    (yields_namedExpression inner).bind fun _ found => .pure found
  refine .after fun start => .after fun _ => .ite ?_ (.after fun _ => .ite given ?_)
  · exact (yields_starredOf (inner _)).bind fun _ found => .pure found
  · refine .after fun shape => ?_
    split
    next => exact .after fun _ => .ite (.after fun _ => .after fun _ => given) plain
    next => exact plain

theorem allFaithful_argumentNodes {arguments : List (ArgumentForm × Node)}
    (faithful : ∀ argument ∈ arguments, argument.2.Faithful) :
    AllFaithful (argumentNodes arguments) := by
  intro node member
  rcases List.mem_map.mp member with ⟨argument, listed, rfl⟩
  rcases List.mem_append.mp listed with positional | named
  · exact faithful argument (List.mem_of_mem_filter positional)
  · exact faithful argument (List.mem_of_mem_filter named)

theorem yields_closeArguments (inner : self.IsFaithful) {first : ArgumentForm × Node}
    (faithful : first.2.Faithful) : Yields (closeArguments self first) AllFaithful :=
  ((yields_argument inner).itemsAfter faithful).bind fun _ arguments =>
    .after fun _ => .after fun _ => .pure (allFaithful_argumentNodes arguments)

theorem yields_classArguments (inner : self.IsFaithful) :
    Yields (classArguments self) AllFaithful :=
  .after fun _ => .ite (.pure .nil)
    ((yields_argument inner).bind fun _ first => yields_closeArguments inner first)

theorem yields_callArguments (inner : self.IsFaithful) (start : Position) :
    Yields (callArguments self start) AllFaithful := by
  refine .after fun _ => .ite (.pure .nil) ?_
  refine (yields_argument inner).bind fun first faithful => ?_
  have others := yields_closeArguments inner faithful
  refine .ite (.after fun _ => .ite ?_ others) others
  refine (yields_clauses inner).bind fun _ found => .after fun _ => ?_
  exact .bind (yields_node trivial (.cons faithful found)) fun _ generator => .pure generator.only

theorem yields_sliceBound (inner : self.IsFaithful) : Yields (sliceBound self) AllFaithful := by
  have bound : Yields (do
      let bound ← self .expression
      pure [bound]) AllFaithful := (inner _).bind fun _ bound => .pure bound.only
  refine .after fun shape => ?_
  split
  next => exact .ite (.pure .nil) bound
  next => exact bound

theorem yields_sliceTail (inner : self.IsFaithful) (start : Position) {lower : List Node}
    (faithful : AllFaithful lower) : Yields (sliceTail self start lower) Faithful := by
  refine .after fun _ => (yields_sliceBound inner).bind fun upper above => .after fun _ => ?_
  have onward : ∀ stride, AllFaithful stride →
      Yields (node .part start (lower ++ upper ++ stride)) Faithful :=
    fun _ stride => yields_node trivial ((faithful.append above).append stride)
  exact .ite ((yields_sliceBound inner).bind onward) (.bind (.pure .nil) onward)

theorem yields_sliceItem (inner : self.IsFaithful) : Yields (sliceItem self) Faithful := by
  refine .after fun start => .after fun _ => .ite (yields_starredOf (inner _)) ?_
  refine .after fun _ => .ite (yields_sliceTail inner start .nil) (.after fun _ => ?_)
  refine (yields_namedExpression inner).bind fun _ first => .after fun _ => ?_
  exact .ite (.after fun _ => yields_sliceTail inner start first.only) (.pure first)

/-- The one place where calls are built. -/
theorem yields_trailers (inner : self.IsFaithful) (start : Position) (bound : Nat) {front : Node}
    (faithful : front.Faithful) : Yields (trailers self start bound front) Faithful := by
  induction bound generalizing front with
  | zero => exact .failure
  | succ bound ih =>
      refine .after fun _ => .ite ?_ (.after fun _ => .ite ?_ (.after fun _ => .ite ?_ ?_))
      · exact .after fun _ => .bind (yields_node trivial faithful.only) fun _ => ih
      · refine .after fun opening => .after fun _ => ?_
        refine (yields_callArguments inner opening).bind fun arguments found => ?_
        exact .bind (yields_node ⟨front, arguments, rfl, rfl⟩ (.cons faithful found)) fun _ => ih
      · refine .after fun opening => .after fun _ => ?_
        refine (yields_sliceItem inner).items.bind fun _ items => ?_
        refine (yields_bareList opening items).bind fun _ index => .after fun _ => ?_
        exact .bind (yields_node trivial (.cons faithful index.only)) fun _ => ih
      · exact .pure faithful

/-! ## Atoms -/

theorem faithful_of_fieldExpression (inner : self.IsFaithful) {field : Field} {node : Node}
    (read : fieldExpression self field = some node) : node.Faithful := by
  unfold fieldExpression at read
  split at read
  next => cases read
  next =>
    split at read
    next found _ _ _ ran =>
      cases read
      exact inner _ _ _ _ ran
    next => cases read

theorem allFaithful_of_fields (inner : self.IsFaithful) {fields : List Field} {found : List Node}
    (read : fields.mapM (fieldExpression self) = some found) : AllFaithful found := by
  induction fields generalizing found with
  | nil =>
      cases read
      exact .nil
  | cons field rest ih =>
      rw [List.mapM_cons] at read
      rcases Option.bind_eq_some_iff.mp read with ⟨node, first, others⟩
      rcases Option.bind_eq_some_iff.mp others with ⟨nodes, later, whole⟩
      cases whole
      exact .cons (faithful_of_fieldExpression inner first) (ih later)

theorem yields_strings (inner : self.IsFaithful) : Yields (strings self) Faithful := by
  refine .after fun start => .after fun literals => .after fun _ => ?_
  split
  next => exact .failure
  next =>
    split
    next => exact .failure
    next found read => exact yields_node trivial (allFaithful_of_fields inner read)

theorem yields_roundBrackets (inner : self.IsFaithful) : Yields (roundBrackets self) Faithful := by
  refine .after fun start => .after fun _ => .after fun _ => .ite (yields_node trivial .nil) ?_
  refine .after fun _ => .ite ?_ ?_
  · exact (yields_yieldExpression inner).bind fun _ found => .after fun _ => .pure found
  · refine (yields_starNamedExpression inner).bind fun _ first => ?_
    refine .after fun _ => .ite (.after fun _ => ?_) (.after fun _ => .ite ?_ ?_)
    · exact (yields_clauses inner).bind fun _ found => .after fun _ =>
        yields_node trivial (.cons first found)
    · exact ((yields_starNamedExpression inner).itemsAfter first).bind fun _ nodes =>
        .after fun _ => yields_node trivial nodes
    · exact .after fun _ => .after fun _ => .pure first

theorem yields_squareBrackets (inner : self.IsFaithful) :
    Yields (squareBrackets self) Faithful := by
  refine .after fun start => .after fun _ => .after fun _ => .ite (yields_node trivial .nil) ?_
  refine (yields_starNamedExpression inner).bind fun _ first => .after fun _ => .ite ?_ ?_
  · split
    next => exact .failure
    next =>
      exact (yields_clauses inner).bind fun _ found => .after fun _ =>
        yields_node trivial (.cons first found)
  · exact ((yields_starNamedExpression inner).itemsAfter first).bind fun _ nodes =>
      .after fun _ => yields_node trivial nodes

/-- The trees of an entry of a dictionary tell what is called. -/
def IsFaithfulEntry (entry : List Node × Node) : Prop :=
  AllFaithful entry.1 ∧ entry.2.Faithful

theorem yields_entry (inner : self.IsFaithful) : Yields (entry self) IsFaithfulEntry := by
  refine .after fun _ => .ite ?_ ?_
  · exact (inner _).bind fun _ value => .pure ⟨.nil, value⟩
  · exact (inner _).bind fun _ key => .after fun _ => (inner _).bind fun _ value =>
      .pure ⟨key.only, value⟩

theorem yields_dictionary (inner : self.IsFaithful) (start : Position) {first : List Node × Node}
    (faithful : IsFaithfulEntry first) : Yields (dictionary self start first) Faithful := by
  refine ((yields_entry inner).itemsAfter faithful).bind fun found entries => .after fun _ => ?_
  refine yields_node trivial (.append ?_ ?_)
  · intro node member
    rcases List.mem_flatMap.mp member with ⟨entry, listed, key⟩
    exact (entries entry listed).1 node key
  · exact List.forall_mem_map.mpr fun entry listed => (entries entry listed).2

theorem yields_curlyBrackets (inner : self.IsFaithful) : Yields (curlyBrackets self) Faithful := by
  refine .after fun start => .after fun _ => .after fun _ => .ite (yields_node trivial .nil) ?_
  refine .after fun _ => .ite ?_ (.after fun _ => ?_)
  · exact (yields_entry inner).bind fun _ first => yields_dictionary inner start first
  · refine (yields_starNamedExpression inner).bind fun _ first => ?_
    refine .after fun _ => .ite (.after fun _ => ?_) (.after fun _ => .ite (.after fun _ => ?_) ?_)
    · refine (inner _).bind fun _ value => .after fun _ => .ite ?_ ?_
      · exact (yields_clauses inner).bind fun _ found => .after fun _ =>
          yields_node trivial (.cons first (.cons value found))
      · exact yields_dictionary inner start ⟨first.only, value⟩
    · exact (yields_clauses inner).bind fun _ found => .after fun _ =>
        yields_node trivial (.cons first found)
    · exact ((yields_starNamedExpression inner).itemsAfter first).bind fun _ nodes =>
        .after fun _ => yields_node trivial nodes

theorem yields_atom (inner : self.IsFaithful) : Yields (atom self) Faithful := by
  refine .after fun start => .after fun shape => ?_
  split
  next => exact .after fun _ => yields_node trivial .nil
  next => exact .after fun _ => yields_node trivial .nil
  next => exact yields_strings inner
  next => exact .after fun _ => .after fun _ => yields_node trivial .nil
  next =>
    refine .ite (yields_roundBrackets inner) (.ite (yields_squareBrackets inner) ?_)
    refine .ite (yields_curlyBrackets inner) (.ite ?_ .failure)
    exact .after fun _ => yields_node trivial .nil
  next => exact .failure

/-! ## Operators -/

theorem yields_primary (inner : self.IsFaithful) : Yields (primary self) Faithful :=
  .after fun start => (yields_atom inner).bind fun _ first => .after fun remaining =>
    yields_trailers inner start remaining.limit first

theorem yields_power (inner : self.IsFaithful) : Yields (power self) Faithful := by
  refine .after fun start => .after fun _ => ?_
  have onward : ∀ base : Node, base.Faithful → Yields (do
      if ← acceptSymbol "**" then
        let exponent ← self .factor
        node .expression start [base, exponent]
      else pure base) Faithful := by
    intro base faithful
    refine .after fun _ => .ite ?_ (.pure faithful)
    exact (inner _).bind fun _ exponent => yields_node trivial (.cons faithful exponent.only)
  refine .ite ?_ ((yields_primary inner).bind onward)
  exact (inner _).bind fun _ awaited => .bind (yields_node trivial awaited.only) onward

theorem yields_factor (inner : self.IsFaithful) : Yields (factor self) Faithful := by
  refine .after fun start => .after fun shape => ?_
  split
  next =>
    refine .ite (.after fun _ => ?_) (yields_power inner)
    exact (inner _).bind fun _ operand => yields_node trivial operand.only
  next => exact yields_power inner

theorem faithful_foldl (start : Position) (rest : List (Node × Position)) {first : Node}
    (faithful : first.Faithful) (others : ∀ operand ∈ rest, operand.1.Faithful) :
    (rest.foldl (fun left operand => .mk .expression start operand.2 [left, operand.1])
      first).Faithful := by
  induction rest generalizing first with
  | nil => exact faithful
  | cons operand rest ih =>
      rcases List.forall_mem_cons.mp others with ⟨right, later⟩
      exact ih (.mk trivial (AllFaithful.cons faithful right.only)) later

theorem yields_leftChain (operators : List String) (operand : Yields rule Faithful) :
    Yields (leftChain operators rule) Faithful := by
  refine .after fun start => operand.bind fun _ first => ?_
  have right : Yields (do
      skip
      let right ← rule
      pure (right, (← get).lastStop)) fun found => found.1.Faithful :=
    .after fun _ => operand.bind fun _ right => .after fun _ => .pure right
  exact (right.repeatWhile _).bind fun rest others => .pure (faithful_foldl start rest first others)

theorem yields_bitwise (inner : self.IsFaithful) : Yields (bitwise self) Faithful := by
  unfold bitwise
  induction binaryOperators with
  | nil => exact yields_factor inner
  | cons operators _ ih => exact yields_leftChain operators ih

theorem yields_comparison (inner : self.IsFaithful) : Yields (comparison self) Faithful := by
  have operand : Yields (do
      if (← comparisonWidth) = 2 then skip
      skip
      bitwise self) Faithful :=
    .after fun _ => .ite (.after fun _ => .after fun _ => yields_bitwise inner)
      (.after fun _ => yields_bitwise inner)
  refine .after fun start => (yields_bitwise inner).bind fun _ first => ?_
  refine (operand.repeatWhile _).bind fun _ rest => .ite (.pure first) ?_
  exact yields_node trivial (.cons first rest)

theorem yields_inversion (inner : self.IsFaithful) : Yields (inversion self) Faithful := by
  refine .after fun start => .after fun _ => .ite ?_ (yields_comparison inner)
  exact (inner _).bind fun _ operand => yields_node trivial operand.only

theorem yields_booleanChain (word : String) (operand : Yields rule Faithful) :
    Yields (booleanChain word rule) Faithful := by
  refine .after fun start => operand.bind fun _ first => ?_
  refine (Yields.repeatWhile _ (.after fun _ => operand)).bind fun _ rest => ?_
  exact .ite (.pure first) (yields_node trivial (.cons first rest))

theorem yields_disjunction (inner : self.IsFaithful) : Yields (disjunction self) Faithful :=
  yields_booleanChain "or" (yields_booleanChain "and" (yields_inversion inner))

theorem yields_expression (inner : self.IsFaithful) : Yields (expression self) Faithful := by
  refine .after fun start => .after fun _ => .ite (yields_lambdaExpression inner) ?_
  refine (yields_disjunction inner).bind fun _ first => .after fun _ => .ite ?_ (.pure first)
  refine (inner _).bind fun _ condition => .after fun _ => (inner _).bind fun _ other => ?_
  exact yields_node trivial (.cons condition (.cons first other.only))

end

/-! ## The grammar -/

theorem isFaithful_rules {self : Grammar} (inner : self.IsFaithful) :
    Grammar.IsFaithful (rules self) := by
  intro goal
  cases goal with
  | expression => exact yields_expression inner
  | disjunction => exact yields_disjunction inner
  | inversion => exact yields_inversion inner
  | bitwise => exact yields_bitwise inner
  | factor => exact yields_factor inner
  | primary => exact yields_primary inner

theorem isFaithful_grammar (depth : Nat) : Grammar.IsFaithful (grammar depth) := by
  induction depth with
  | zero => exact fun _ => .failure
  | succ depth ih => exact isFaithful_rules ih

end Syntax
end CodeQuality
