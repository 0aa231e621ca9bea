import CodeQuality.Proofs.Analysis.Origin
import CodeQuality.Proofs.Syntax.Statements
import CodeQuality.Proofs.Syntax.Traversal

namespace CodeQuality
namespace Survey
namespace Python

open Syntax

/-!
Dangerous calls are found wherever they stand.

The survey goes through the nodes of a tree from above, each before its children, while a
walk with a queue meets them level by level.  Both meet the same calls, so there is one
finding for each call of a dangerous function that the walk meets, however deep it stands.
What is called is read off the tree itself: it is the first child of a call.
-/

/-- The functions that are dangerous to call. -/
def dangerousNames : List String := ["eval", "exec", "literal_eval", "system"]

/-- The name by which something is called: a name, or the last part of an attribute. -/
def nameOf? (node : Node) : Option String :=
  match node.kind with
  | .name id => some id
  | .attribute member => some member
  | _ => none

/-- The name of what a node calls, if it is a call. -/
def calledName? (node : Node) : Option String :=
  match node.kind with
  | .call _ => node.children.head?.bind nameOf?
  | _ => none

/-- Whether a node is a call of a dangerous function. -/
def isDangerousCall (node : Node) : Bool := (calledName? node).any dangerousNames.contains

/-- A finding tells of a call: where it stands and how bad it is. -/
structure TellsOf (file : String) (call : Node) (finding : Finding) : Prop where
  category : finding.category = .security
  severity : finding.severity = if calledName? call = some "literal_eval" then .medium else .high
  place : ∃ details, finding.details = some details ∧
    details.file = file ∧ details.line = some call.start.line

/-! ## The judgement on a name -/

theorem calleeName_eq (node : Node) : calleeName node = (nameOf? node).getD "" := by
  unfold calleeName nameOf?
  cases node.kind <;> rfl

theorem danger?_of_mem {name : String} (listed : name ∈ dangerousNames) :
    ∃ danger, danger? name = some danger ∧
      danger.severity = if name = "literal_eval" then .medium else .high := by
  simp only [dangerousNames, List.mem_cons, List.not_mem_nil, or_false] at listed
  rcases listed with rfl | rfl | rfl | rfl
  · exact ⟨_, rfl, rfl⟩
  · exact ⟨_, rfl, rfl⟩
  · exact ⟨_, rfl, rfl⟩
  · exact ⟨_, rfl, rfl⟩

theorem danger?_of_not_mem {name : String} (absent : name ∉ dangerousNames) :
    danger? name = none := by
  simp only [dangerousNames, List.mem_cons, List.not_mem_nil, or_false, not_or] at absent
  rcases absent with ⟨notEval, notExec, notLiteral, notSystem⟩
  rw [danger?, if_neg (not_or.mpr ⟨notEval, notExec⟩), if_neg notLiteral, if_neg notSystem]

/-! ## One node -/

section

variable {source : List Char} {file : String} {node : Node}

theorem isDangerousCall_iff :
    isDangerousCall node = true ↔ ∃ name ∈ dangerousNames, calledName? node = some name := by
  rw [isDangerousCall, Option.any_eq_true]
  simp only [List.contains_iff_mem]
  constructor
  · rintro ⟨name, called, listed⟩
    exact ⟨name, listed, called⟩
  · rintro ⟨name, listed, called⟩
    exact ⟨name, called, listed⟩

/-- A call tells the name of what it calls, and nothing if that has no name. -/
theorem callee_eq {callee : String} (call : node.kind = .call callee)
    (fits : node.kind.Fits node.children) : callee = (calledName? node).getD "" := by
  have called : calledName? node = node.children.head?.bind nameOf? := by
    rw [calledName?, call]
  rw [call] at fits
  rcases fits with ⟨function, arguments, children, rfl⟩
  rw [called, children, calleeName_eq]
  rfl

theorem kind_of_calledName {name : String} (called : calledName? node = some name) :
    ∃ callee, node.kind = .call callee := by
  unfold calledName? at called
  split at called
  next callee call => exact ⟨callee, call⟩
  next => cases called

/-- A call of a dangerous function is a finding, which tells of it. -/
theorem exists_dangerFinding (fits : node.kind.Fits node.children)
    (dangerous : isDangerousCall node = true) :
    ∃ finding, dangerFinding? source file node = some finding ∧ TellsOf file node finding := by
  rcases isDangerousCall_iff.mp dangerous with ⟨name, listed, called⟩
  rcases kind_of_calledName called with ⟨callee, call⟩
  have same : callee = name := by
    rw [callee_eq call fits, called]
    rfl
  subst same
  rcases danger?_of_mem listed with ⟨danger, known, severity⟩
  refine ⟨Analysis.callFinding source file callee danger node, ?_, rfl, ?_, _, rfl, rfl, rfl⟩
  · exact Analysis.dangerFinding?_eq_some.mpr ⟨callee, danger, call, known, rfl⟩
  · rw [called]
    simp only [Option.some.injEq]
    exact severity

/-- No other node is one. -/
theorem isDangerousCall_of_dangerFinding {finding : Finding} (fits : node.kind.Fits node.children)
    (found : dangerFinding? source file node = some finding) : isDangerousCall node = true := by
  rcases Analysis.dangerFinding?_eq_some.mp found with ⟨callee, danger, call, known, -⟩
  have listed : callee ∈ dangerousNames := by
    by_contra absent
    rw [danger?_of_not_mem absent] at known
    cases known
  have same := callee_eq call fits
  cases called : calledName? node with
  | none =>
      rw [called] at same
      rw [same] at listed
      exact absurd listed (by decide)
  | some name =>
      rw [called, Option.getD_some] at same
      exact isDangerousCall_iff.mpr ⟨name, same ▸ listed, called⟩

end

/-- The findings among nodes belong to the dangerous calls among them one by one. -/
theorem tellsOf_filterMap {source : List Char} {file : String} (nodes : List Node)
    (fits : ∀ node ∈ nodes, node.kind.Fits node.children) :
    List.Forall₂ (TellsOf file) (nodes.filter isDangerousCall)
      (nodes.filterMap (dangerFinding? source file)) := by
  induction nodes with
  | nil => exact .nil
  | cons node rest ih =>
      rcases List.forall_mem_cons.mp fits with ⟨first, others⟩
      by_cases dangerous : isDangerousCall node = true
      · rcases exists_dangerFinding first dangerous with ⟨finding, found, tells⟩
        rw [List.filter_cons_of_pos dangerous, List.filterMap_cons_some found]
        exact .cons tells (ih others)
      · have none : dangerFinding? source file node = none := by
          rw [Option.eq_none_iff_forall_ne_some]
          exact fun finding found => dangerous (isDangerousCall_of_dangerFinding first found)
        rw [List.filter_cons_of_neg dangerous, List.filterMap_cons_none none]
        exact ih others

/-- The dangerous calls of a text are the calls of dangerous functions that a walk of its tree level
by level meets, each told once. -/
theorem dangers_are_dangerous_calls {reader : Reader} {source : List Char} {tree : Node}
    (parsed : reader.parse source = .ok tree) (file : String) :
    Node.Walks [tree] tree.breadthFirst ∧
      ∃ calls : List Node, calls.Perm (tree.breadthFirst.filter isDangerousCall) ∧
        List.Forall₂ (TellsOf file) calls (dangers source file tree) := by
  have walks := tree.walks_breadthFirst
  have same := tree.breadthFirst_perm_depthFirst
  have faithful : AllFaithful tree.breadthFirst :=
    walks.forall_visited (fun _ => Node.Faithful.children) (faithful_of_parse parsed).only
  have fits : ∀ node ∈ tree.depthFirst, node.kind.Fits node.children :=
    fun node member => (faithful node (same.mem_iff.mpr member)).fits
  exact ⟨walks, tree.depthFirst.filter isDangerousCall,
    (same.filter isDangerousCall).symm, tellsOf_filterMap tree.depthFirst fits⟩

/-- Calls in a decorator, in a default, and in arguments of calls in a comprehension. -/
def nestedCalls : List Char :=
  ("@eval(1)\ndef f(a=os.system(2)):\n" ++
    "  return [exec(x) for x in (lambda: literal_eval(eval(3)))()]").toList

theorem nestedCalls_are_told :
    ∃ tree, Reader.plain.parse nestedCalls = .ok tree ∧
      (dangers nestedCalls "calls.py" tree).map (·.severity) =
        [.high, .high, .medium, .high, .high] ∧
      Node.Walks [tree] tree.breadthFirst ∧
      ∃ calls : List Node, calls.Perm (tree.breadthFirst.filter isDangerousCall) ∧
        List.Forall₂ (TellsOf "calls.py") calls (dangers nestedCalls "calls.py" tree) := by
  have severities : (Reader.plain.parse nestedCalls).toOption.map (fun tree =>
      (dangers nestedCalls "calls.py" tree).map (·.severity)) =
        some [.high, .high, .medium, .high, .high] := by decide +kernel
  rcases Option.map_eq_some_iff.mp severities with ⟨tree, given, told⟩
  have parsed : Reader.plain.parse nestedCalls = .ok tree := by
    cases result : Reader.plain.parse nestedCalls with
    | error fault =>
        rw [result] at given
        cases given
    | ok found =>
        rw [result] at given
        cases given
        rfl
  exact ⟨tree, parsed, told, dangers_are_dangerous_calls parsed "calls.py"⟩

end Python
end Survey
end CodeQuality
