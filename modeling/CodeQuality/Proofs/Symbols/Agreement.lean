import CodeQuality.Dependencies
import CodeQuality.Proofs.Symbols.Counting
import CodeQuality.Proofs.Symbols.References
import CodeQuality.Proofs.Text.Pieces

namespace CodeQuality

open Dependencies

namespace Symbols

/-!
Two graphs of the same references.

The call graph counts references between labels, each a module and a name with a dot
between them.  The graph of dependencies counts them between modules, and leaves out
those of modules without a name.  A name has no dot, so a label tells its module, and
the weight of a dependency is what the calls between the two modules add up to.
-/

/-- Both ends of a call are labels of one name, in one module and in another. -/
def NamedIn (source target : String) (ends : String × String) : Prop :=
  ∃ name : String, '.' ∉ name.toList ∧ ends.1 = source ++ "." ++ name ∧
    ends.2 = target ++ "." ++ name

/-- The weight of the edge between two ends; nothing when there is no such edge. -/
def weightOf (edges : List Edge) (source target : String) : Nat :=
  ((edges.find? fun edge => edge.source = source ∧ edge.target = target).map (·.count)).getD 0

/-- The ends of a reference in the call graph. -/
def Reference.labels (reference : Reference) : String × String :=
  (reference.caller ++ "." ++ reference.calleeName,
    reference.calleeModule ++ "." ++ reference.calleeName)

/-! ## Labels -/

theorem toList_label (path name : String) :
    (path ++ "." ++ name).toList = path.toList ++ '.' :: name.toList := by
  rw [String.toList_append, String.toList_append, List.append_assoc]
  rfl

/-- A label tells the module and the name, when the name has no dot. -/
theorem label_inj {path other name another : String} (clear : '.' ∉ name.toList)
    (otherClear : '.' ∉ another.toList) (same : path ++ "." ++ name = other ++ "." ++ another) :
    path = other ∧ name = another := by
  have letters := congrArg String.toList same
  rw [toList_label, toList_label] at letters
  rcases Text.append_mark_inj clear otherClear letters with ⟨paths, names⟩
  exact ⟨String.toList_inj.mp paths, String.toList_inj.mp names⟩

theorem namedIn_labels {reference : Reference} (clear : '.' ∉ reference.calleeName.toList)
    (source target : String) :
    NamedIn source target reference.labels ↔
      reference.caller = source ∧ reference.calleeModule = target := by
  constructor
  · rintro ⟨name, plain, first, second⟩
    exact ⟨(label_inj clear plain first).1, (label_inj clear plain second).1⟩
  · rintro ⟨rfl, rfl⟩
    exact ⟨reference.calleeName, clear, rfl, rfl⟩

/-- What follows the module in the first label is the only name that both can have. -/
instance (source target : String) (ends : String × String) :
    Decidable (NamedIn source target ends) :=
  decidable_of_iff
    ('.' ∉ ends.1.toList.drop (source.toList.length + 1) ∧
      ends.1.toList = source.toList ++ '.' :: ends.1.toList.drop (source.toList.length + 1) ∧
      ends.2.toList = target.toList ++ '.' :: ends.1.toList.drop (source.toList.length + 1)) (by
    constructor
    · rintro ⟨clear, first, second⟩
      refine ⟨String.ofList (ends.1.toList.drop (source.toList.length + 1)), ?_, ?_, ?_⟩
      · rwa [String.toList_ofList]
      · apply String.toList_inj.mp
        rwa [toList_label, String.toList_ofList]
      · apply String.toList_inj.mp
        rwa [toList_label, String.toList_ofList]
    · rintro ⟨name, clear, first, second⟩
      have behind : ends.1.toList.drop (source.toList.length + 1) = name.toList := by
        rw [first, toList_label, List.drop_append]
        simp
      rw [behind, first, second, toList_label, toList_label]
      exact ⟨clear, rfl, rfl⟩)

/-! ## The two graphs -/

theorem referenceEnds_toJson (reference : Reference) :
    referenceEnds reference.toJson = .ok reference.labels := rfl

/-- The call graph of the record of references is always made. -/
theorem callGraph_eq (found : List Reference) :
    CallGraph.ofReferences (referencesJson found) =
      .ok ⟨endsOf (countEdges (found.map Reference.labels)),
        countEdges (found.map Reference.labels)⟩ := by
  have listed : (referencesJson found).member "call_graph" (.arr []) =
      .ok (.arr (found.map (·.toJson))) := rfl
  rw [CallGraph.ofReferences, listed]
  simp only [bind, Except.bind, Json.elements, List.mapM_map]
  have each : found.mapM (referenceEnds ∘ Reference.toJson) = .ok (found.map Reference.labels) :=
    Outcome.mapM_eq_ok fun reference _ => referenceEnds_toJson reference
  rw [each]
  rfl

/-- Where each pair of ends has one edge, its weight is all that is counted between them. -/
theorem weightOf_eq_countBetween {edges : List Edge} (unique : (edges.map Edge.ends).Nodup)
    (source target : String) :
    weightOf edges source target = countBetween (· = (source, target)) edges := by
  induction edges with
  | nil => rfl
  | cons edge rest ih =>
      rw [List.map_cons, List.nodup_cons] at unique
      rw [countBetween_cons]
      by_cases same : edge.source = source ∧ edge.target = target
      · have ends : edge.ends = (source, target) := Prod.ext same.1 same.2
        have others : ∀ other ∈ rest, decide (other.ends = (source, target)) = false := by
          intro other member
          rw [decide_eq_false_iff_not, ← ends]
          intro equal
          exact unique.1 (equal ▸ List.mem_map_of_mem member)
        rw [countBetween_eq_zero others, weightOf, List.find?_cons_of_pos (by simpa using same),
          ends, decide_eq_true rfl]
        rfl
      · have ends : edge.ends ≠ (source, target) := by
          intro equal
          exact same ⟨congrArg Prod.fst equal, congrArg Prod.snd equal⟩
        rw [weightOf, List.find?_cons_of_neg (by simpa using same), decide_eq_false ends,
          if_neg Bool.false_ne_true, Nat.zero_add, ← ih unique.2, weightOf]

/-- The references between two modules with names are counted on the dependency between them. -/
theorem countP_namedEnds (found : List Reference) {source target : String} (named : source ≠ "")
    (targetNamed : target ≠ "") :
    (namedEnds found).countP (· = (source, target)) =
      found.countP fun reference =>
        decide (reference.caller = source ∧ reference.calleeModule = target) := by
  rw [namedEnds, List.countP_filter, List.countP_map]
  apply List.countP_congr
  intro reference _
  simp only [Function.comp, Bool.and_eq_true, decide_eq_true_eq, Prod.mk.injEq]
  constructor
  · rintro ⟨same, _⟩
    exact same
  · rintro ⟨rfl, rfl⟩
    exact ⟨⟨rfl, rfl⟩, named, targetNamed⟩

/-- The references between two modules are counted on the calls between labels of one name in
them. -/
theorem countP_labels {found : List Reference}
    (clear : ∀ reference ∈ found, '.' ∉ reference.calleeName.toList) (source target : String) :
    (found.map Reference.labels).countP (fun ends => decide (NamedIn source target ends)) =
      found.countP fun reference =>
        decide (reference.caller = source ∧ reference.calleeModule = target) := by
  rw [List.countP_map]
  apply List.countP_congr
  intro reference member
  simp only [Function.comp, decide_eq_true_eq]
  exact namedIn_labels (clear reference member) source target

/-- The call graph of a symbol table counts each of its references on one edge, its nodes are the
ends of the edges, and between modules with names it adds up to the dependencies. -/
theorem call_graph_adds_up_to_dependencies (table : Table) :
    ∃ found graph, references table.toJson = .ok found ∧
      CallGraph.ofReferences (referencesJson found) = .ok graph ∧
      (graph.edges.map Edge.ends).Nodup ∧
      (graph.edges.map (·.count)).sum = found.length ∧
      graph.nodes.Nodup ∧
      (∀ node, node ∈ graph.nodes ↔
        ∃ edge ∈ graph.edges, node = edge.source ∨ node = edge.target) ∧
      ∀ (order : Order) (source target : String), source ≠ "" → target ≠ "" →
        countBetween (fun ends => decide (NamedIn source target ends)) graph.edges =
          weightOf (Dependencies.ofReferences order found).edges source target := by
  have clear : ∀ reference ∈ tableReferences table, '.' ∉ reference.calleeName.toList :=
    fun _ => point_notMem_of_tableReferences
  refine ⟨tableReferences table, _, references_toJson table, callGraph_eq _,
    nodup_ends_countEdges _, ?_, nodup_endsOf _, fun node => mem_endsOf, ?_⟩
  · rw [← countBetween_all, countBetween_countEdges, List.countP_true, List.length_map]
  · intro order source target named targetNamed
    calc countBetween (fun ends => decide (NamedIn source target ends))
            (countEdges ((tableReferences table).map Reference.labels))
        = ((tableReferences table).map Reference.labels).countP
            fun ends => decide (NamedIn source target ends) := countBetween_countEdges _ _
      _ = (tableReferences table).countP fun reference =>
            decide (reference.caller = source ∧ reference.calleeModule = target) :=
          countP_labels clear source target
      _ = (namedEnds (tableReferences table)).countP (· = (source, target)) :=
          (countP_namedEnds _ named targetNamed).symm
      _ = countBetween (· = (source, target))
            (countEdges (namedEnds (tableReferences table))) :=
          (countBetween_countEdges _ _).symm
      _ = weightOf (Dependencies.ofReferences order (tableReferences table)).edges source target :=
          (weightOf_eq_countBetween (nodup_ends_countEdges _) source target).symm

/-- A module that calls itself and another one, a module without a name, and names with dots. -/
def smallTable : Table :=
  [("app.main",
      ⟨[⟨"run", 1, some [], "def run(): load(); lib.io.load(lib.io.save())"⟩], [], [], []⟩),
    ("", ⟨[⟨"main", 3, some [], "def main(): lib.io.load()"⟩], [], [], []⟩)]

theorem smallTable_adds_up :
    ∃ found graph, references smallTable.toJson = .ok found ∧
      CallGraph.ofReferences (referencesJson found) = .ok graph ∧
      (graph.edges.map (·.count)).sum = 6 ∧
      countBetween (fun ends => decide (NamedIn "app.main" "lib.io" ends)) graph.edges = 2 ∧
      weightOf (Dependencies.ofReferences .byName found).edges "app.main" "lib.io" = 2 := by
  rcases call_graph_adds_up_to_dependencies smallTable with
    ⟨found, graph, read, made, _, total, _, _, between⟩
  have listed : found = tableReferences smallTable :=
    Except.ok.inj (read.symm.trans (references_toJson smallTable))
  have weight :
      weightOf (Dependencies.ofReferences .byName found).edges "app.main" "lib.io" = 2 := by
    rw [listed]
    decide +kernel
  refine ⟨found, graph, read, made, ?_, ?_, weight⟩
  · rw [total, listed]
    decide +kernel
  · rw [between .byName "app.main" "lib.io" (by decide) (by decide), weight]

end Symbols
end CodeQuality
