import CodeQuality.Proofs.Files.Stat
import CodeQuality.Proofs.Script.Offsets
import CodeQuality.Proofs.Text.Scanning
import Mathlib.Data.List.Forall2
import Mathlib.Data.List.ReduceOption

namespace CodeQuality
namespace Script
namespace Node

open Text List

/-!
The walk through a syntax tree of a script.

The walk keeps a list of nodes that wait.  In every round it takes the last of them,
notes what it reads there and puts the children of the node at the end of the list.
Nothing bounds the number of rounds.  Yet each round takes one node away from the trees
that wait, so the walk ends after as many rounds as there are nodes, and it has gone
through the tree as the recursion does that visits a node before its children and the
children from right to left.
-/

/-! ## Rounds -/

/-- What the walk keeps: the nodes that wait, of which the last is next, and what it has noted. -/
structure Work where
  waiting : List Node
  functions : List Function
  suspicions : List Survey.Suspicion

/-- One round of the walk, if a node waits. -/
def Work.next? (source : List Char) (work : Work) : Option Work :=
  work.waiting.getLast?.map fun node =>
    { waiting := work.waiting.dropLast ++ node.children
      functions := work.functions ++ (node.function? source).toList
      suspicions := work.suspicions ++ (node.suspicion? source).toList }

/-- The walk that goes on from some work ends with other work after a number of rounds. -/
inductive Ends (source : List Char) : Nat → Work → Work → Prop
  | idle {work : Work} (empty : work.next? source = none) : Ends source 0 work work
  | round {rounds : Nat} {work next last : Work} (taken : work.next? source = some next)
      (onward : Ends source rounds next last) : Ends source (rounds + 1) work last

theorem Work.next?_concat (source : List Char) (front : List Node) (node : Node)
    (functions : List Function) (suspicions : List Survey.Suspicion) :
    Work.next? source ⟨front ++ [node], functions, suspicions⟩ =
      some ⟨front ++ node.children, functions ++ (node.function? source).toList,
        suspicions ++ (node.suspicion? source).toList⟩ := by
  rw [Work.next?, getLast?_concat, dropLast_concat]
  rfl

/-- A walk ends in one way at most. -/
theorem Ends.unique {source : List Char} {rounds others : Nat} {work last final : Work}
    (first : Ends source rounds work last) (second : Ends source others work final) :
    rounds = others ∧ last = final := by
  induction first generalizing others with
  | idle empty =>
      cases second with
      | idle => exact ⟨rfl, rfl⟩
      | round taken => cases empty.symm.trans taken
  | round taken _ ih =>
      cases second with
      | idle empty => cases empty.symm.trans taken
      | round again onward =>
          cases taken.symm.trans again
          rcases ih onward with ⟨rfl, rfl⟩
          exact ⟨rfl, rfl⟩

/-! ## The recursion -/

mutual

/-- The nodes of a tree, each before its children, and the children from right to left. -/
def preorder : Node → List Node
  | .mk type start stop children fields =>
      .mk type start stop children fields :: preorders children

/-- The nodes of several trees, from the last tree to the first. -/
def preorders : List Node → List Node
  | [] => []
  | node :: rest => preorders rest ++ node.preorder

end

theorem preorder_eq (node : Node) : node.preorder = node :: preorders node.children := by
  cases node
  rw [preorder]
  rfl

theorem preorders_append (front back : List Node) :
    preorders (front ++ back) = preorders back ++ preorders front := by
  induction front with
  | nil => exact (append_nil _).symm
  | cons node rest ih => rw [cons_append, preorders, preorders, ih, append_assoc]

theorem preorders_singleton (node : Node) : preorders [node] = node.preorder := by
  rw [preorders, preorders, nil_append]

theorem size_eq (node : Node) : node.size = sizes node.children + 1 := by
  cases node
  rw [size]
  rfl

theorem sizes_append (front back : List Node) :
    sizes (front ++ back) = sizes front + sizes back := by
  induction front with
  | nil => exact (Nat.zero_add _).symm
  | cons node rest ih => rw [cons_append, sizes, sizes, ih, Nat.add_assoc]

theorem sizes_singleton (node : Node) : sizes [node] = node.size := rfl

theorem sizes_reverse (nodes : List Node) : sizes nodes.reverse = sizes nodes := by
  induction nodes with
  | nil => rfl
  | cons node rest ih =>
      rw [reverse_cons, sizes_append, sizes_singleton, ih, sizes, Nat.add_comm]

theorem eq_nil_of_sizes_eq_zero {nodes : List Node} (none : sizes nodes = 0) : nodes = [] := by
  cases nodes with
  | nil => rfl
  | cons node rest =>
      rw [sizes, size_eq] at none
      omega

/-! ## The walk is the recursion -/

/-- The walk ends when every node of the waiting trees has been taken once, and it has noted what is
read at the nodes in the order of the recursion. -/
theorem ends_preorders (source : List Char) (waiting : List Node) (functions : List Function)
    (suspicions : List Survey.Suspicion) :
    Ends source (sizes waiting) ⟨waiting, functions, suspicions⟩
      ⟨[], functions ++ (preorders waiting).filterMap (function? source),
        suspicions ++ (preorders waiting).filterMap (suspicion? source)⟩ := by
  generalize count : sizes waiting = rounds
  -- a round takes one node of the waiting trees, so the number of their nodes carries the induction
  induction rounds generalizing waiting functions suspicions with
  | zero =>
      rw [eq_nil_of_sizes_eq_zero count, preorders, filterMap_nil, filterMap_nil,
        append_nil, append_nil]
      exact .idle rfl
  | succ rounds ih =>
      rcases eq_nil_or_concat waiting with rfl | ⟨front, node, rfl⟩
      · cases count
      · rw [concat_eq_append] at count ⊢
        have fewer : sizes (front ++ node.children) = rounds := by
          rw [sizes_append, sizes_singleton, size_eq] at count
          rw [sizes_append]
          omega
        have order : preorders (front ++ [node]) = node :: preorders (front ++ node.children) := by
          rw [preorders_append, preorders_append, preorders_singleton, preorder_eq,
            cons_append]
        have noted : ∀ {β : Type} (read : Node → Option β) (old : List β),
            old ++ (preorders (front ++ [node])).filterMap read =
              old ++ (read node).toList ++
                (preorders (front ++ node.children)).filterMap read := by
          intro β read old
          rw [order, filterMap_eq_flatMap_toList, filterMap_eq_flatMap_toList,
            flatMap_cons, append_assoc]
        rw [noted, noted]
        exact .round (Work.next?_concat source front node functions suspicions) (ih _ _ _ fewer)

theorem visits_eq_preorders {bound : Nat} {pending : List Node} (enough : sizes pending ≤ bound) :
    visits bound pending = preorders pending.reverse := by
  induction bound generalizing pending with
  | zero =>
      rw [eq_nil_of_sizes_eq_zero (Nat.le_zero.mp enough)]
      rfl
  | succ bound ih =>
      cases pending with
      | nil => rfl
      | cons node pending =>
          have fewer : sizes (node.children.reverse ++ pending) ≤ bound := by
            rw [sizes, size_eq] at enough
            rw [sizes_append, sizes_reverse]
            omega
          rw [visits, ih fewer, reverse_append, reverse_reverse, preorders_append,
            reverse_cons, preorders_append, preorders_singleton, preorder_eq,
            cons_append]

theorem visited_eq_preorder (root : Node) : root.visited = root.preorder := by
  rw [visited, visits_eq_preorders (Nat.le_of_eq (sizes_singleton root)), reverse_singleton,
    preorders_singleton]

/-- What the walk through a tree has noted when it ends is what is read from the tree. -/
theorem ends_iff (source : List Char) (root : Node) (rounds : Nat) (last : Work) :
    Ends source rounds ⟨[root], [], []⟩ last ↔
      rounds = root.size ∧ last = ⟨[], (Survey.Script.reading source (some root)).1,
        (Survey.Script.reading source (some root)).2⟩ := by
  have ends := ends_preorders source [root] [] []
  rw [sizes_singleton, preorders_singleton, ← visited_eq_preorder, nil_append,
    nil_append] at ends
  constructor
  · exact fun other => other.unique ends
  · rintro ⟨rfl, rfl⟩
    exact ends

/-! ## Nodes that are noted -/

/-- What is called by a call, if its tree tells. -/
def callee (source : List Char) (node : Node) : List Char :=
  ((node.field? "function").map (text source)).getD []

/-- What is shown of a call. -/
def shown (source : List Char) (node : Node) : List Char := (trim (node.text source)).take callWidth

/-- The kind of a suspicious call by what it calls and what is shown of it; the first sign that is
there decides. -/
inductive IsOfKind (callee shown : List Char) : String → Prop
  | evaluation (evaluates : "eval".toList <:+: callee) : IsOfKind callee shown "eval"
  | markup (noEvaluation : ¬ "eval".toList <:+: callee)
      (writes : "document.write".toList <:+: shown ∨ ".innerHTML".toList <:+: shown) :
      IsOfKind callee shown "dom-xss"
  | making (noEvaluation : ¬ "eval".toList <:+: callee)
      (noMarkup : ¬ ("document.write".toList <:+: shown ∨ ".innerHTML".toList <:+: shown))
      (makes : "Function".toList <:+: callee ∧ "new".toList <:+: shown) :
      IsOfKind callee shown "new_function"

/-- Whether a node is a call. -/
def IsCall (node : Node) : Prop := node.type = "call_expression" ∨ node.type = "call"

/-- What a node is warned of: one thing if it is a call of some kind, and nothing otherwise. -/
inductive Warns (source : List Char) (node : Node) : Option Survey.Suspicion → Prop
  | suspicious {kind : String} (call : node.IsCall)
      (known : IsOfKind (node.callee source) (node.shown source) kind) :
      Warns source node (some ⟨kind, node.line source, String.ofList (node.shown source)⟩)
  | harmless (call : node.IsCall)
      (unknown : ∀ kind, ¬ IsOfKind (node.callee source) (node.shown source) kind) :
      Warns source node none
  | other (noCall : ¬ node.IsCall) : Warns source node none

theorem warns_suspicion? (source : List Char) (node : Node) :
    Warns source node (node.suspicion? source) := by
  have signs : ∀ (word : String) (text : List Char),
      holdsWord word text = true ↔ word.toList <:+: text := fun _ _ => occursIn_iff
  simp only [suspicion?, signs, Bool.or_eq_true, Bool.and_eq_true]
  split_ifs with call evaluates writes makes
  · exact .suspicious call (.evaluation evaluates)
  · exact .suspicious call (.markup evaluates writes)
  · exact .suspicious call (.making evaluates writes makes)
  · refine .harmless call fun kind known => ?_
    cases known with
    | evaluation sign => exact evaluates sign
    | markup _ sign => exact writes sign
    | making _ _ sign => exact makes sign
  · exact .other call

/-- A node is a function exactly when it is of one of the types of functions. -/
theorem isSome_function?_iff (source : List Char) (node : Node) :
    (node.function? source).isSome = true ↔ node.type ∈ functionTypes := by
  rw [function?, ← contains_iff_mem]
  cases isFunction : functionTypes.contains node.type with
  | false => simp
  | true => simp

/-- Functions and suspicious constructs are those of a tree: the walk ends with them, in one way
only and after as many rounds as the tree has nodes, and in the order of the recursion there is one
function for each node of the four types of functions and at most one warning for each call. -/
structure RecordsTraversal (source : List Char) (tree : Node) (functions : List Function)
    (suspicions : List Survey.Suspicion) : Prop where
  ends : ∀ rounds last, Ends source rounds ⟨[tree], [], []⟩ last ↔
    rounds = tree.size ∧ last = ⟨[], functions, suspicions⟩
  functions : Forall₂ (fun node function => node.function? source = some function)
    (tree.preorder.filter fun node => node.type ∈
      ["function_declaration", "method_definition", "arrow_function", "function"]) functions
  warnings : ∃ warnings, Forall₂ (Warns source) tree.preorder warnings ∧
    suspicions = warnings.reduceOption

theorem recordsTraversal_reading (source : List Char) (tree : Node) :
    RecordsTraversal source tree (Survey.Script.reading source (some tree)).1
      (Survey.Script.reading source (some tree)).2 where
  ends := ends_iff source tree
  functions := by
    have each := @forall₂_filterMap _ _ (function? source)
      (fun node function => node.function? source = some function) tree.preorder
      fun _ _ _ read => read
    have chosen : (fun node : Node => (node.function? source).isSome) =
        fun node => decide (node.type ∈ functionTypes) := by
      funext node
      rw [Bool.eq_iff_iff, isSome_function?_iff, decide_eq_true_eq]
    rw [chosen, ← visited_eq_preorder] at each
    rw [← visited_eq_preorder]
    exact each
  warnings := by
    refine ⟨tree.preorder.map (suspicion? source), ?_, ?_⟩
    · rw [forall₂_map_right_iff]
      exact forall₂_same.mpr fun node _ => warns_suspicion? source node
    · rw [reduceOption, filterMap_map, ← visited_eq_preorder]
      rfl

end Node
end Script

namespace Survey
namespace Script

open CodeQuality.Script

/-- Whatever tree a grammar gives for a script, the survey of the script reports what the walk
through the tree has noted when it ends, and that is what the recursion that visits a node before
its children, and the children from right to left, comes by. -/
theorem walk_records_traversal {grammar : Grammar} {files : Files} {root path : Files.Path}
    {position : Nat} {tree : Node} (surveyed : (sourcePaths files root)[position]? = some path)
    (parsed : grammar.tree? position = some tree) :
    ∃ functions suspicions,
      tree.RecordsTraversal (files.readLenient (root ++ path)) functions suspicions ∧
      (surveyAt grammar files root).files[position]? = some (Files.relativeText path,
        .script (functions.map fun function => ⟨function.name, function.line⟩)
          (todos (files.readLenient (root ++ path))) suspicions
          (functions.filterMap bodyDigest?)) := by
  refine ⟨_, _, Node.recordsTraversal_reading _ tree, ?_⟩
  simp only [surveyAt, List.getElem?_map, List.getElem?_mapIdx, surveyed, Option.map_some, parsed,
    surveyFile]

/-- A directory with one script, in which calls stand in a function and behind it. -/
def callingScript : Files :=
  ⟨.dir [("a.js", .file (.bytes (Files.textBytes
    "var h = () => eval(f(1)); document.write(h)")))], []⟩

/-- The tree of the script.  What is called stands in fields and is no child. -/
def callingTree : Node :=
  .mk "program" 0 43
    [.mk "arrow_function" 8 24
      [.mk "call_expression" 14 24
        [.mk "call_expression" 19 23 [] [("function", .mk "identifier" 19 20 [] [])]]
        [("function", .mk "identifier" 14 18 [] [])]] [],
      .mk "call_expression" 26 43 [] [("function", .mk "member_expression" 26 40 [] [])]] []

/-- The last call is reported first, and of the two calls in the function the outer one. -/
theorem callingScript_traversed :
    (sourcePaths callingScript [])[0]? = some ["a.js"] ∧
      (Grammar.loaded [some callingTree]).tree? 0 = some callingTree ∧
      ∃ functions suspicions,
        callingTree.RecordsTraversal (callingScript.readLenient ["a.js"]) functions suspicions ∧
        (surveyAt (.loaded [some callingTree]) callingScript []).files[0]? = some ("a.js",
          .script (functions.map fun function => ⟨function.name, function.line⟩)
            (todos (callingScript.readLenient ["a.js"])) suspicions
            (functions.filterMap bodyDigest?)) ∧
        functions = [⟨"<anonymous>", 1, "() => eval(f(1))".toList⟩] ∧
        suspicions = [⟨"dom-xss", 1, "document.write(h)"⟩, ⟨"eval", 1, "eval(f(1))"⟩] := by
  have surveyed : (sourcePaths callingScript [])[0]? = some ["a.js"] := by
    have named : isScript "a.js" = true := by decide +kernel
    rw [sourcePaths, Files.visits, Files.stat_nil]
    simp [callingScript, Files.Entry.visits, Files.visitsBelow, Files.folderNames, Files.fileNames,
      Files.Entry.isFolder, named]
  have read : callingScript.readLenient ["a.js"] =
      "var h = () => eval(f(1)); document.write(h)".toList := by
    have stat : callingScript.stat ["a.js"] = .ok (.file (.bytes (Files.textBytes
        "var h = () => eval(f(1)); document.write(h)"))) :=
      Files.stat_singleton rfl (by decide) (if_pos rfl) rfl
    rw [Files.readLenient, Files.open?, stat]
    decide +kernel
  have parsed : (Grammar.loaded [some callingTree]).tree? 0 = some callingTree := rfl
  rcases walk_records_traversal surveyed parsed with ⟨functions, suspicions, records, reported⟩
  refine ⟨surveyed, rfl, functions, suspicions, records, reported, ?_⟩
  have noted := ((Node.ends_iff _ _ _ _).mp ((records.ends _ _).mpr ⟨rfl, rfl⟩)).2
  rw [List.nil_append, read] at noted
  injection noted with _ own warned
  rw [own, warned]
  decide +kernel

end Script
end Survey
end CodeQuality
