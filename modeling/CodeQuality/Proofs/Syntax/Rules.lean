import CodeQuality.Syntax.Expression
import Mathlib.Data.List.Basic

namespace CodeQuality
namespace Syntax

open Rule

/-!
What can be said of the values that rules give.

A rule yields values of a certain kind if it gives no other, whatever is left to read.
Most of what a rule does is to take tokens and to look at the next one, and for that it
does not matter what is taken and seen: of a rule in several steps only those count whose
values go into the result.
-/

/-- All values that a rule can give are good. -/
def Yields {α : Type} (rule : Rule α) (good : α → Prop) : Prop :=
  ∀ before value after, rule.run before = some (value, after) → good value

namespace Yields

variable {α β : Type} {rule other : Rule α} {good : α → Prop}

theorem pure {value : α} (holds : good value) : Yields (pure value) good := by
  intro before result after ran
  rcases Prod.mk.inj (Option.some.inj ran) with ⟨rfl, -⟩
  exact holds

theorem failure : Yields (failure : Rule α) good := by
  intro before value after ran
  cases ran

/-- A step whose value goes into the result. -/
theorem bind {next : α → Rule β} {result : β → Prop} (first : Yields rule good)
    (second : ∀ value, good value → Yields (next value) result) :
    Yields (rule >>= next) result := by
  intro before value after ran
  rw [StateT.run_bind] at ran
  rcases Option.bind_eq_some_iff.mp ran with ⟨middle, firstRan, secondRan⟩
  exact second middle.1 (first _ _ _ firstRan) _ _ _ secondRan

/-- A step whose value does not matter. -/
theorem after {next : α → Rule β} {result : β → Prop}
    (second : ∀ value, Yields (next value) result) : Yields (rule >>= next) result := by
  have anything : Yields rule fun _ => True := fun _ _ _ _ => trivial
  exact anything.bind fun value _ => second value

theorem ite {condition : Prop} [Decidable condition] (first : Yields rule good)
    (second : Yields other good) : Yields (if condition then rule else other) good := by
  split
  next => exact first
  next => exact second

theorem orElse (first : Yields rule good) (second : Yields other good) :
    Yields (rule <|> other) good := by
  intro before value after ran
  change (rule.run before <|> other.run before) = some (value, after) at ran
  cases firstRan : rule.run before with
  | some found =>
      rw [firstRan] at ran
      exact first _ _ _ (firstRan.trans ran)
  | none =>
      rw [firstRan] at ran
      exact second _ _ _ ran

theorem map {function : α → β} {result : β → Prop} (first : Yields rule good)
    (holds : ∀ value, good value → result (function value)) :
    Yields (function <$> rule) result := by
  intro before value after ran
  rw [StateT.run_map] at ran
  rcases Option.map_eq_some_iff.mp ran with ⟨middle, firstRan, same⟩
  rcases Prod.mk.inj same with ⟨rfl, -⟩
  exact holds _ (first _ _ _ firstRan)

theorem attempt (yields : Yields rule good) :
    Yields rule.attempt fun found => ∀ value ∈ found, good value := by
  refine orElse (yields.map fun value holds => ?_) (Yields.pure ?_)
  · exact fun other same => Option.some.inj same ▸ holds
  · exact fun other absent => absurd absent (Option.not_mem_none other)

/-! ## Repetitions -/

theorem repeatUpTo (goesOn : Rule Bool) (yields : Yields rule good) (bound : Nat) :
    Yields (repeatUpTo goesOn rule bound) fun found => ∀ value ∈ found, good value := by
  induction bound with
  | zero => exact failure
  | succ bound ih =>
      refine after fun again => ite ?_ (Yields.pure (List.forall_mem_nil _))
      exact yields.bind fun first holds => ih.bind fun rest others =>
        Yields.pure (List.forall_mem_cons.mpr ⟨holds, others⟩)

theorem repeatWhile (goesOn : Rule Bool) (yields : Yields rule good) :
    Yields (repeatWhile goesOn rule) fun found => ∀ value ∈ found, good value :=
  after fun remaining => yields.repeatUpTo goesOn remaining.limit

theorem moreItems (yields : Yields rule good) (bound : Nat) :
    Yields (moreItems rule bound) fun found => ∀ value ∈ found, good value := by
  induction bound with
  | zero => exact failure
  | succ bound ih =>
      refine after fun comma => ite ?_ (Yields.pure (List.forall_mem_nil _))
      refine yields.attempt.bind fun item holds => ?_
      cases item with
      | none => exact Yields.pure (List.forall_mem_nil _)
      | some item =>
          exact ih.bind fun rest others =>
            Yields.pure (List.forall_mem_cons.mpr ⟨holds item rfl, others⟩)

theorem itemsAfter (yields : Yields rule good) {first : α} (holds : good first) :
    Yields (itemsAfter first rule) fun found => ∀ value ∈ found.1, good value :=
  after fun _ => after fun remaining => (yields.moreItems remaining.limit).bind fun _ others =>
    Yields.pure (List.forall_mem_cons.mpr ⟨holds, others⟩)

theorem items (yields : Yields rule good) :
    Yields (items rule) fun found => ∀ value ∈ found.1, good value :=
  yields.bind fun _ holds => yields.itemsAfter holds

theorem strictItems (yields : Yields rule good) :
    Yields (strictItems rule) fun found => ∀ value ∈ found, good value :=
  yields.bind fun _ holds =>
    (repeatWhile _ (after fun _ => yields)).bind fun _ others =>
      Yields.pure (List.forall_mem_cons.mpr ⟨holds, others⟩)

end Yields

/-! ## Trees that tell what is called -/

/-- Whether a node of a kind can have these children: the first child of a call is what is called,
and the call tells its name. -/
def Kind.Fits : Kind → List Node → Prop
  | .call callee, children => ∃ function arguments,
      children = function :: arguments ∧ callee = calleeName function
  | _, _ => True

/-- A tree in which every call tells what is called. -/
inductive Node.Faithful : Node → Prop
  | mk {kind : Kind} {start stop : Position} {children : List Node} (fits : kind.Fits children)
      (inside : ∀ child ∈ children, child.Faithful) : Faithful (.mk kind start stop children)

/-- Several trees of this kind. -/
abbrev AllFaithful (nodes : List Node) : Prop := ∀ node ∈ nodes, node.Faithful

theorem AllFaithful.nil : AllFaithful [] := List.forall_mem_nil _

theorem AllFaithful.cons {node : Node} {rest : List Node} (first : node.Faithful)
    (others : AllFaithful rest) : AllFaithful (node :: rest) :=
  List.forall_mem_cons.mpr ⟨first, others⟩

theorem AllFaithful.append {nodes others : List Node} (front : AllFaithful nodes)
    (back : AllFaithful others) : AllFaithful (nodes ++ others) :=
  List.forall_mem_append.mpr ⟨front, back⟩

theorem AllFaithful.flatten {lists : List (List Node)}
    (faithful : ∀ nodes ∈ lists, AllFaithful nodes) : AllFaithful lists.flatten := by
  intro node member
  rcases List.mem_flatten.mp member with ⟨nodes, listed, inside⟩
  exact faithful nodes listed node inside

theorem Node.Faithful.only {node : Node} (faithful : node.Faithful) : AllFaithful [node] :=
  .cons faithful .nil

theorem Node.Faithful.fits {node : Node} (faithful : node.Faithful) :
    node.kind.Fits node.children := by
  cases faithful with
  | mk fits _ => exact fits

theorem Node.Faithful.children {node : Node} (faithful : node.Faithful) :
    AllFaithful node.children := by
  cases faithful with
  | mk _ inside => exact inside

theorem yields_node {kind : Kind} {start : Position} {children : List Node}
    (fits : kind.Fits children) (inside : AllFaithful children) :
    Yields (node kind start children) Node.Faithful :=
  .after fun _ => .pure (.mk fits inside)

/-- A tree that may be missing.  What follows gets it in a list. -/
theorem yields_optional {β : Type} {condition : Prop} [Decidable condition] {rule : Rule Node}
    {next : List Node → Rule β} {good : β → Prop} (yields : Yields rule Node.Faithful)
    (onward : ∀ nodes, AllFaithful nodes → Yields (next nodes) good) :
    Yields (if condition then rule >>= fun found => pure [found] >>= next else pure [] >>= next)
      good :=
  .ite (yields.bind fun _ found => .bind (.pure found.only) onward) (.bind (.pure .nil) onward)

end Syntax
end CodeQuality
