import CodeQuality.Proofs.Files.Stat
import CodeQuality.Proofs.Ranking
import CodeQuality.Proofs.Symbols.Counting
import CodeQuality.Proofs.Symbols.References
import CodeQuality.Dependencies

namespace CodeQuality
namespace Dependencies

/-!
What a graph of dependencies keeps of the references.

The references between modules with names are distributed over edges, and each edge
heats its two ends.  Nothing is lost on the way: the edges weigh as much as there are
references, and the nodes are twice as hot as the edges weigh, since an edge from a
node to itself heats that node twice.

The hotspots are the first few nodes by heat.  The nodes can come in any order, and
equally hot ones keep it, so what is shown of the hotspots holds for every order.
-/

open Symbols List

/-- The edges and the nodes of a graph account for the references. -/
structure Conserves (found : List Reference) (graph : Dependencies) : Prop where
  edgesDistinct : (graph.edges.map Edge.ends).Nodup
  positive : ∀ edge ∈ graph.edges, 0 < edge.count
  nodesDistinct : (graph.nodes.map Prod.fst).Nodup
  /-- The nodes are the ends of the edges. -/
  nodes_iff : ∀ name, name ∈ graph.nodes.map Prod.fst ↔
    ∃ edge ∈ graph.edges, name = edge.source ∨ name = edge.target
  /-- A node is heated by the edges that leave it and by those that arrive. -/
  heated : ∀ node ∈ graph.nodes, node.2 =
    ((graph.edges.filter fun edge => edge.source = node.1).map (·.count)).sum +
      ((graph.edges.filter fun edge => edge.target = node.1).map (·.count)).sum
  twice : (graph.nodes.map Prod.snd).sum = 2 * (graph.edges.map (·.count)).sum
  total : (graph.edges.map (·.count)).sum = found.countP fun reference =>
    reference.caller ≠ "" ∧ reference.calleeModule ≠ ""

/-- Some nodes are the hottest ones, from the hottest on. -/
structure AreHottest (nodes chosen : List (String × Nat)) : Prop where
  length : chosen.length = min 5 nodes.length
  within : ∀ node ∈ chosen, node ∈ nodes
  distinct : (chosen.map Prod.fst).Nodup
  falling : chosen.Pairwise fun first second => second.2 ≤ first.2
  dominant : ∀ other ∈ nodes, other ∉ chosen → ∀ node ∈ chosen, other.2 ≤ node.2

/-! ## Heat -/

theorem heat_cons (edge : Edge) (edges : List Edge) (node : String) :
    heat (edge :: edges) node =
      (if edge.source = node then edge.count else 0) +
        (if edge.target = node then edge.count else 0) + heat edges node := rfl

/-- The heat of a node is what is counted on the edges that leave it and on those that arrive. -/
theorem heat_eq (edges : List Edge) (node : String) :
    heat edges node = countBetween (fun ends => ends.1 = node) edges +
      countBetween (fun ends => ends.2 = node) edges := by
  induction edges with
  | nil => rfl
  | cons edge rest ih =>
      rw [heat_cons, countBetween_cons, countBetween_cons, ih, Edge.ends]
      by_cases leaves : edge.source = node <;> by_cases arrives : edge.target = node <;>
        simp only [leaves, arrives, decide_true, decide_false, if_true, if_false,
          Bool.false_eq_true] <;> omega

/-- What belongs to one node of several is counted once. -/
theorem sum_map_ite {nodes : List String} (distinct : nodes.Nodup) {own : String}
    (member : own ∈ nodes) (count : Nat) :
    (nodes.map fun node => if own = node then count else 0).sum = count := by
  rw [sum_map_eq_nsmul_single own, count_eq_one_of_mem distinct member, one_nsmul,
    if_pos rfl]
  intro node different _
  exact if_neg (Ne.symm different)

/-- Each edge heats its two ends. -/
theorem sum_heat {nodes : List String} (distinct : nodes.Nodup) {edges : List Edge}
    (ends : ∀ edge ∈ edges, edge.source ∈ nodes ∧ edge.target ∈ nodes) :
    (nodes.map (heat edges)).sum = 2 * (edges.map (·.count)).sum := by
  induction edges with
  | nil =>
      apply sum_eq_zero
      intro amount listed
      rcases mem_map.mp listed with ⟨node, _, rfl⟩
      rfl
  | cons edge rest ih =>
      rw [forall_mem_cons] at ends
      have parts : nodes.map (heat (edge :: rest)) = nodes.map fun node =>
          (if edge.source = node then edge.count else 0) +
            (if edge.target = node then edge.count else 0) + heat rest node := rfl
      rw [parts, sum_map_add, sum_map_add, sum_map_ite distinct ends.1.1,
        sum_map_ite distinct ends.1.2, ih ends.2, map_cons, sum_cons]
      omega

theorem conserves_ofReferences (order : Order) (found : List Reference) :
    Conserves found (ofReferences order found) where
  edgesDistinct := nodup_ends_countEdges _
  positive := count_pos_of_mem_countEdges _
  nodesDistinct := by
    rw [ofReferences, map_map]
    exact (map_id _).symm ▸ (order.perm _).nodup_iff.mpr (nodup_endsOf _)
  nodes_iff := by
    intro name
    rw [ofReferences, map_map]
    exact (map_id _).symm ▸ (order.perm _).mem_iff.trans mem_endsOf
  heated := by
    intro node member
    rcases mem_map.mp member with ⟨name, _, rfl⟩
    exact heat_eq _ name
  twice := by
    rw [ofReferences, map_map]
    refine sum_heat ((order.perm _).nodup_iff.mpr (nodup_endsOf _)) ?_
    intro edge member
    rw [(order.perm _).mem_iff, (order.perm _).mem_iff]
    exact ⟨mem_endsOf.mpr ⟨edge, member, Or.inl rfl⟩, mem_endsOf.mpr ⟨edge, member, Or.inr rfl⟩⟩
  total := by
    rw [ofReferences, ← countBetween_all, countBetween_countEdges, countP_true, namedEnds,
      ← countP_eq_length_filter, countP_map]
    apply countP_congr
    intro reference _
    simp

/-! ## The hottest nodes -/

theorem insertByHeat_eq {node : String × Nat} {above below : List (String × Nat)}
    (hotter : ∀ other ∈ above, node.2 < other.2) (colder : ∀ other ∈ below, other.2 ≤ node.2) :
    insertByHeat node (above ++ below) = above ++ node :: below := by
  induction above with
  | nil =>
      cases below with
      | nil => rfl
      | cons next rest => exact if_neg (Nat.not_lt.mpr (colder next mem_cons_self))
  | cons first rest ih =>
      rw [forall_mem_cons] at hotter
      rw [cons_append, insertByHeat, if_pos hotter.1, ih hotter.2, cons_append]

theorem byHeat_eq_ranked (nodes : List (String × Nat)) :
    byHeat nodes = Sorting.ranked (fun node => node.2) nodes := by
  induction nodes with
  | nil => exact (Sorting.ranked_nil _).symm
  | cons node rest ih =>
      rcases Sorting.ranked_cons (fun node : String × Nat => (node.2 : Int)) node rest with
        ⟨above, below, placed, others, hotter, colder⟩
      rw [placed, byHeat, foldr_cons, ← byHeat, ih, others]
      apply insertByHeat_eq
      · exact fun other member => Int.ofNat_lt.mp (hotter other member)
      · exact fun other member => Int.ofNat_le.mp (colder other member)

/-- The first few nodes by heat are the hottest ones, whichever order the nodes come in. -/
theorem areHottest_take {nodes arranged : List (String × Nat)}
    (distinct : (nodes.map Prod.fst).Nodup) (permuted : arranged.Perm nodes) :
    AreHottest nodes ((Sorting.ranked (fun node => node.2) arranged).take hotspotCount) := by
  replace permuted := (Sorting.ranked_perm (fun node => (node.2 : Int)) arranged).trans permuted
  have falling := Sorting.falling_ranked (fun node : String × Nat => (node.2 : Int)) arranged
  generalize Sorting.ranked _ arranged = sorted at permuted falling
  replace falling := falling.imp Int.ofNat_le.mp
  refine ⟨?_, ?_, ?_, falling.sublist (take_sublist _ _), ?_⟩
  · rw [length_take, permuted.length_eq, hotspotCount]
  · exact fun node member => permuted.mem_iff.mp (mem_of_mem_take member)
  · exact ((permuted.map Prod.fst).nodup_iff.mpr distinct).sublist ((take_sublist _ _).map _)
  · intro other member outside node chosen
    rw [← permuted.mem_iff, ← take_append_drop hotspotCount sorted] at member
    rw [← take_append_drop hotspotCount sorted, pairwise_append] at falling
    exact falling.2.2 node chosen other ((mem_append.mp member).resolve_left outside)

/-- What the record of a graph shows: all nodes and edges, and the hotspots. -/
structure Shows (graph : Dependencies) (record : Json) : Prop where
  nodes : record.get? "nodes" = some (.arr (graph.nodes.map fun node =>
    .obj [("id", .str node.1), ("label", .str node.1), ("hotness", .nat node.2)]))
  edges : record.get? "edges" = some (.arr (graph.edges.map fun edge =>
    .obj [("source", .str edge.source), ("target", .str edge.target),
      ("weight", .nat edge.count)]))
  hotspots : record.get? "hotspots" = some (.arr (graph.hotspots.map fun node =>
    .obj [("id", .str node.1), ("score", .nat node.2)]))

/-! ## Repositories -/

/-- The dependencies of a repository are always found, and they keep its references; the hotspots
are the hottest nodes; and the record shows all of them, with or without a library for graphs.  All
this is so in whichever order the nodes come. -/
theorem dependencies_keep_references {files : Files} {path : String} {root : Files.Path}
    (resolved : files.resolve path = .ok root) (reader : Syntax.Reader) (order : Order) :
    ∃ table found graph, pythonTable reader files path = .ok table ∧
      references table.toJson = .ok found ∧ ofRepository reader order files path = .ok graph ∧
      Conserves found graph ∧ AreHottest graph.nodes graph.hotspots ∧
      graph.hotspots = (Sorting.ranked (fun node => node.2) graph.nodes).take 5 ∧
      (∀ arranged, arranged.Perm graph.nodes →
        AreHottest graph.nodes ((Sorting.ranked (fun node => node.2) arranged).take 5)) ∧
      ∀ hasLibrary, Shows graph (graph.toJson hasLibrary) := by
  have tabled : pythonTable reader files path = .ok (tableOf ".py"
      (fun file => pythonEntry reader files (root ++ file)) (files.matching ".py" root)) := by
    rw [pythonTable, resolved]
    rfl
  generalize tableOf ".py" (fun file => pythonEntry reader files (root ++ file))
    (files.matching ".py" root) = table at tabled
  have made : ofRepository reader order files path =
      .ok (ofReferences order (tableReferences table)) := by
    rw [ofRepository, tabled]
    simp only [bind, Except.bind, references_toJson]
    rfl
  have conserved := conserves_ofReferences order (tableReferences table)
  generalize ofReferences order (tableReferences table) = graph at made conserved
  have hottest := fun arranged => @areHottest_take _ arranged conserved.nodesDistinct
  have ranked : graph.hotspots = (Sorting.ranked (fun node => node.2) graph.nodes).take 5 :=
    congrArg (take 5) (byHeat_eq_ranked _)
  exact ⟨table, tableReferences table, graph, tabled, references_toJson table, made, conserved,
    ranked ▸ hottest _ (.refl _), ranked, hottest, fun _ => ⟨rfl, rfl, rfl⟩⟩

/-- Nodes in the opposite order. -/
def lastFirst : Order := ⟨reverse, reverse_perm⟩

def callingFiles : Files :=
  ⟨.dir [("a.py", .file (.bytes "def f(): lib.g(f())".toUTF8.toList))], []⟩

theorem callingFiles_table : pythonTable .plain callingFiles "/" =
    .ok [("a", ⟨[⟨"f", 1, some [], "def f(): lib.g(f())"⟩], [], [], []⟩)] := by
  have found : callingFiles.stat ["a.py"] =
      .ok (.file (.bytes "def f(): lib.g(f())".toUTF8.toList)) :=
    Files.stat_singleton rfl (by decide) rfl rfl
  have text : callingFiles.readStrict ["a.py"] = .ok "def f(): lib.g(f())".toList := by
    rw [Files.readStrict, Files.open?, found]
    decide +kernel
  have entry : pythonEntry .plain callingFiles ["a.py"] =
      ⟨[⟨"f", 1, some [], "def f(): lib.g(f())"⟩], [], [], []⟩ := by
    rw [pythonEntry, text]
    decide +kernel
  have name : moduleName ".py" ["a.py"] = "a" := by decide +kernel
  have listed : callingFiles.matching ".py" [] = [["a.py"]] := by
    rw [Files.matching, Files.stat_nil]
    decide +kernel
  rw [pythonTable, Files.resolve_slash]
  simp only [bind, Except.bind, pure, Except.pure, listed, tableOf, foldl_cons, foldl_nil,
    putEntry, nil_append, name, entry]

/-- A module that refers to itself twice, and once to another one. -/
theorem callingFiles_dependencies :
    ∃ found graph, ofRepository .plain lastFirst callingFiles "/" = .ok graph ∧
      Conserves found graph ∧ graph.nodes = [("lib", 1), ("a", 5)] ∧
      graph.edges = [⟨"a", "a", 2⟩, ⟨"a", "lib", 1⟩] ∧
      AreHottest graph.nodes [("a", 5), ("lib", 1)] := by
  rcases dependencies_keep_references (Files.resolve_slash callingFiles) .plain lastFirst with
    ⟨table, found, graph, _, _, made, conserved, hottest, _⟩
  have evaluated := made
  rw [ofRepository, callingFiles_table] at evaluated
  simp only [bind, Except.bind, references_toJson] at evaluated
  have parts : graph.nodes = [("lib", 1), ("a", 5)] ∧
      graph.edges = [⟨"a", "a", 2⟩, ⟨"a", "lib", 1⟩] ∧
      graph.hotspots = [("a", 5), ("lib", 1)] := by
    rw [← Except.ok.inj evaluated]
    decide +kernel
  refine ⟨found, graph, made, conserved, parts.1, parts.2.1, ?_⟩
  rw [← parts.2.2]
  exact hottest

end Dependencies
end CodeQuality
