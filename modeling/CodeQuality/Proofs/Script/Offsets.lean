import CodeQuality.Proofs.Text.Encoding
import CodeQuality.Survey.Script
import Mathlib.Data.List.Infix
import Mathlib.Data.List.TakeWhile

namespace CodeQuality
namespace Script

open Text List

/-!
Places in the bytes of a script.

A grammar reads the bytes of a script, and the places of its nodes count bytes.  What is
taken from a node is cut out of the characters at the same places.  The two agree as long
as every character is one byte.  A wider character moves all that follows it, so only the
last character of a script can be one that does no harm.
-/

namespace Node

/-- A place in the bytes of a text that lies between two characters, or at an end. -/
def IsBoundary (source : List Char) (place : Int) : Prop :=
  ∃ front, front <+: source ∧ place = (encoded front).length

/-- The nodes of a tree, with those that fields point to. -/
inductive Has (root : Node) : Node → Prop
  | root : Has root root
  | child {node child : Node} (above : Has root node) (below : child ∈ node.children) :
      Has root child
  | field {node target : Node} {name : String} (above : Has root node)
      (named : node.field? name = some target) : Has root target

/-- All nodes of a tree stand between places in the bytes of a text. -/
def IsPlacedIn (source : List Char) (root : Node) : Prop :=
  ∀ node, root.Has node → IsBoundary source node.start ∧ IsBoundary source node.stop

/-- The bytes of a text between the places of a node are read as another text. -/
def Spells (source : List Char) (node : Node) (text : List Char) : Prop :=
  decodeStrict (((encoded source).take node.stop.toNat).drop node.start.toNat) = .ok text

/-- The line of a node, by the line feeds among the bytes before it. -/
def byteLine (source : List Char) (node : Node) : Nat :=
  ((encoded source).take node.start.toNat).count 10 + 1

/-- A function is what a node spells. -/
structure SpellsFunction (source : List Char) (node : Node) (function : Function) : Prop where
  name : ∀ own, node.nameNode? = some own → ∃ text, own.Spells source text ∧
    function.name = if text = [] then "<anonymous>" else String.ofList text
  body : ∃ text, node.Spells source text ∧ function.body = text.take bodyWidth
  line : function.line = node.byteLine source

/-- A suspicious call is what a node spells. -/
structure SpellsCall (source : List Char) (node : Node) (suspicion : Survey.Suspicion) : Prop where
  snippet : ∃ text, node.Spells source text ∧
    suspicion.snippet = String.ofList ((trim text).take callWidth)
  line : suspicion.line = node.byteLine source

/-- What is read from a tree is what its nodes spell. -/
structure IsHonouredIn (source : List Char) (root : Node) : Prop where
  functions : Forall₂ (SpellsFunction source)
    (root.visited.filter fun node => (node.function? source).isSome)
    (Survey.Script.reading source (some root)).1
  calls : Forall₂ (SpellsCall source)
    (root.visited.filter fun node => (node.suspicion? source).isSome)
    (Survey.Script.reading source (some root)).2

/-! ## Nodes -/

variable {node : Node} {source : List Char}

theorem Has.trans {root other : Node} (first : root.Has node) (second : node.Has other) :
    root.Has other := by
  induction second with
  | root => exact first
  | child _ below ih => exact .child ih below
  | field _ named ih => exact .field ih named

theorem has_of_mem_visits {bound : Nat} {pending : List Node}
    (member : node ∈ visits bound pending) : ∃ start ∈ pending, start.Has node := by
  induction bound generalizing pending with
  | zero => cases member
  | succ bound ih =>
      cases pending with
      | nil => cases member
      | cons first pending =>
          rcases mem_cons.mp member with rfl | later
          · exact ⟨node, mem_cons_self, .root⟩
          · rcases ih later with ⟨start, waiting, has⟩
            rcases mem_append.mp waiting with child | other
            · exact ⟨first, mem_cons_self,
                (Has.root.child (mem_reverse.mp child)).trans has⟩
            · exact ⟨start, mem_cons_of_mem first other, has⟩

theorem has_of_mem_visited {root : Node} (member : node ∈ root.visited) : root.Has node := by
  rcases has_of_mem_visits member with ⟨start, waiting, has⟩
  rwa [mem_singleton.mp waiting] at has

theorem has_of_nameNode? {own : Node} (named : node.nameNode? = some own) : node.Has own := by
  rw [nameNode?] at named
  cases first : node.field? "name" with
  | some target =>
      rw [first] at named
      cases named
      exact .field .root first
  | none =>
      cases second : node.field? "identifier" with
      | some target =>
          rw [first, second] at named
          cases named
          exact .field .root second
      | none =>
          rw [first, second] at named
          exact .child .root (mem_of_find?_eq_some named)

/-- What is told of a suspicious call. -/
theorem exists_kind_of_suspicion? {suspicion : Survey.Suspicion}
    (read : node.suspicion? source = some suspicion) :
    ∃ kind, suspicion = ⟨kind, node.line source,
      String.ofList ((trim (node.text source)).take callWidth)⟩ := by
  have told : ∀ kind : String, some (⟨kind, node.line source,
      String.ofList ((trim (node.text source)).take callWidth)⟩ : Survey.Suspicion) =
        some suspicion → ∃ kind, suspicion = ⟨kind, node.line source,
          String.ofList ((trim (node.text source)).take callWidth)⟩ :=
    fun kind same => ⟨kind, (Option.some.inj same).symm⟩
  unfold suspicion? at read
  split at read
  · simp only at read
    split at read
    · exact told _ read
    · split at read
      · exact told _ read
      · split at read
        · exact told _ read
        · cases read
  · cases read

/-! ## Bytes between two places -/

theorem take_encoded {front : List Char} (begins : front <+: source) :
    (encoded source).take (encoded front).length = encoded front := by
  rcases begins with ⟨rest, rfl⟩
  rw [encoded_append, take_left]

theorem drop_encoded {first last : List Char} (begins : first <+: source) (ends : last <+: source) :
    (encoded last).drop (encoded first).length = encoded (last.drop first.length) := by
  rcases prefix_or_prefix_of_prefix begins ends with ⟨between, rfl⟩ | ⟨between, rfl⟩
  · rw [encoded_append, drop_left, drop_left]
  · have shorter : last.length ≤ (last ++ between).length := by
      rw [length_append]
      exact Nat.le_add_right _ _
    have fewer : (encoded last).length ≤ (encoded (last ++ between)).length := by
      rw [encoded_append, length_append]
      exact Nat.le_add_right _ _
    rw [drop_eq_nil_of_le fewer, drop_eq_nil_of_le shorter, encoded_nil]

section

variable {first last : List Char} (begins : first <+: source)
  (start : node.start = (encoded first).length)

include begins start

theorem spells_of_boundaries (ends : last <+: source) (stop : node.stop = (encoded last).length) :
    node.Spells source (last.drop first.length) := by
  rw [Spells, start, stop, Int.toNat_natCast, Int.toNat_natCast, take_encoded ends,
    drop_encoded begins ends, decodeStrict_encoded]

theorem byteLine_of_boundary : node.byteLine source = lineNumberAfter first := by
  rw [byteLine, start, Int.toNat_natCast, take_encoded begins, count_encoded_newline,
    lineNumberAfter]

end

/-! ## Scripts in ASCII -/

/-- Every character but the last is one byte. -/
def IsNarrow (source : List Char) : Prop := ∀ c ∈ source.dropLast, c.toNat < 128

section

variable (narrow : IsNarrow source)

include narrow

/-- Between narrow characters, places in the bytes are places in the text. -/
theorem clamp_boundary {front : List Char} (begins : front <+: source) :
    clamp source.length (encoded front).length = front.length := by
  have inside : front.length ≤ source.length := begins.length_le
  rw [clamp, if_neg (by omega), Int.toNat_natCast]
  by_cases whole : front = source
  · subst whole
    exact Nat.min_eq_right (length_le_encoded front)
  · have before : front <+: source.dropLast := by
      rcases eq_nil_or_concat source with rfl | ⟨others, last, rfl⟩
      · exact begins
      · rw [concat_eq_append] at begins whole ⊢
        rw [dropLast_concat]
        exact (prefix_concat_iff.mp begins).resolve_left whole
    rw [length_encoded_ascii fun c member => narrow c (before.subset member)]
    exact Nat.min_eq_left inside

theorem spells_text (begins : IsBoundary source node.start) (ends : IsBoundary source node.stop) :
    node.Spells source (node.text source) := by
  rcases begins with ⟨first, begins, start⟩
  rcases ends with ⟨last, ends, stop⟩
  have cut : node.text source = last.drop first.length := by
    rw [text, slice, start, stop, clamp_boundary narrow begins, clamp_boundary narrow ends,
      ← prefix_iff_eq_take.mp ends]
  rw [cut]
  exact spells_of_boundaries begins start ends stop

theorem byteLine_eq_line (begins : IsBoundary source node.start) :
    node.byteLine source = node.line source := by
  rcases begins with ⟨first, begins, start⟩
  rw [byteLine_of_boundary begins start, line, upTo, start, clamp_boundary narrow begins,
    ← prefix_iff_eq_take.mp begins]

theorem spellsFunction {function : Function} (placed : node.IsPlacedIn source)
    (read : node.function? source = some function) : node.SpellsFunction source function := by
  have own := placed node .root
  unfold function? at read
  split at read
  · cases read
    refine ⟨?_, ⟨_, spells_text narrow own.1 own.2, rfl⟩, (byteLine_eq_line narrow own.1).symm⟩
    intro target named
    have inside := placed target (has_of_nameNode? named)
    refine ⟨_, spells_text narrow inside.1 inside.2, ?_⟩
    simp only [named, Option.map_some, Option.getD_some, String.ofList_eq_empty_iff]
  · cases read

theorem spellsCall {suspicion : Survey.Suspicion} (placed : node.IsPlacedIn source)
    (read : node.suspicion? source = some suspicion) : node.SpellsCall source suspicion := by
  have own := placed node .root
  rcases exists_kind_of_suspicion? read with ⟨kind, rfl⟩
  exact ⟨⟨_, spells_text narrow own.1 own.2, rfl⟩, (byteLine_eq_line narrow own.1).symm⟩

end

/-- What a reading of the nodes of a list gives is related to the nodes that it gives something
for. -/
theorem forall₂_filterMap {α β : Type} {read : α → Option β} {related : α → β → Prop}
    {items : List α} (each : ∀ item ∈ items, ∀ value, read item = some value → related item value) :
    Forall₂ related (items.filter fun item => (read item).isSome) (items.filterMap read) := by
  induction items with
  | nil => exact .nil
  | cons item rest ih =>
      rw [forall_mem_cons] at each
      cases found : read item with
      | none =>
          rw [filter_cons_of_neg (by simp [found]), filterMap_cons_none found]
          exact ih each.2
      | some value =>
          rw [filter_cons_of_pos (by simp [found]), filterMap_cons_some found]
          exact .cons (each.1 value found) (ih each.2)

theorem isHonouredIn_of_isNarrow (narrow : IsNarrow source) {root : Node}
    (placed : root.IsPlacedIn source) : root.IsHonouredIn source := by
  have below : ∀ node ∈ root.visited, node.IsPlacedIn source := fun node member other has =>
    placed other ((has_of_mem_visited member).trans has)
  constructor
  · exact forall₂_filterMap fun node member _ read => spellsFunction narrow (below node member) read
  · exact forall₂_filterMap fun node member _ read => spellsCall narrow (below node member) read

/-! ## Wider characters -/

/-- In a text that is not narrow, the first wide character is not the last one. -/
theorem exists_wide (wide : ¬ IsNarrow source) :
    ∃ front c next rest, source = front ++ c :: next :: rest ∧ (∀ a ∈ front, a.toNat < 128) ∧
      ¬ c.toNat < 128 := by
  have narrowFront : ∀ a ∈ source.takeWhile fun a => decide (a.toNat < 128), a.toNat < 128 :=
    fun a member => by simpa using mem_takeWhile_imp member
  have parts := takeWhile_append_dropWhile (p := fun a : Char => decide (a.toNat < 128))
    (l := source)
  generalize source.takeWhile (fun a => decide (a.toNat < 128)) = front at narrowFront parts
  cases left : source.dropWhile fun a => decide (a.toNat < 128) with
  | nil =>
      rw [left, append_nil] at parts
      exact absurd (fun a member => narrowFront a (parts ▸ dropLast_subset source member)) wide
  | cons c more =>
      have high : ¬ c.toNat < 128 := by
        have first := head?_dropWhile_not (fun a : Char => decide (a.toNat < 128)) source
        rw [left] at first
        simpa using first
      cases more with
      | nil =>
          rw [left] at parts
          refine absurd (fun a member => narrowFront a ?_) wide
          rwa [← parts, dropLast_concat] at member
      | cons next rest =>
          rw [left] at parts
          exact ⟨front, c, next, rest, parts.symm, narrowFront, high⟩

/-- The function that stands where a text behind a front stands. -/
def functionAt (front text : List Char) : Node :=
  .mk "function" (encoded front).length (encoded (front ++ text)).length [] []

theorem functionAt_isPlacedIn (front text rest : List Char) :
    (functionAt front text).IsPlacedIn (front ++ text ++ rest) := by
  intro node has
  have same : node = functionAt front text := by
    induction has with
    | root => rfl
    | child _ below ih =>
        subst ih
        cases below
    | field _ named ih =>
        subst ih
        cases named
  subst same
  refine ⟨⟨front, ?_, rfl⟩, ⟨front ++ text, prefix_append _ _, rfl⟩⟩
  rw [append_assoc]
  exact prefix_append _ _

/-- A function that is a single wide character is read with the character behind it. -/
theorem functionAt_not_isHonouredIn {front rest : List Char} {c next : Char}
    (ascii : ∀ a ∈ front, a.toNat < 128) (wide : ¬ c.toNat < 128) :
    ¬ (functionAt front [c]).IsHonouredIn (front ++ c :: next :: rest) := by
  intro honoured
  have start : (encoded front).length = front.length := length_encoded_ascii ascii
  have stop : (encoded (front ++ [c])).length = front.length + c.utf8Size := by
    rw [encoded_append, length_append, start, length_encoded_cons, encoded_nil,
      length_nil, Nat.add_zero]
  have spelled : (functionAt front [c]).Spells (front ++ c :: next :: rest) [c] := by
    have ends : front ++ [c] <+: front ++ c :: next :: rest :=
      ⟨next :: rest, append_assoc front [c] (next :: rest)⟩
    have cut := @spells_of_boundaries (functionAt front [c]) _ _ _ (prefix_append front _) rfl
      ends rfl
    rwa [drop_left] at cut
  have long : 2 ≤ ((functionAt front [c]).text (front ++ c :: next :: rest)).length := by
    have size := one_lt_utf8Size wide
    simp only [functionAt, text, Node.start, Node.stop, slice, clamp, start, stop,
      length_drop, length_take, length_append, length_cons]
    split
    · omega
    · split
      · omega
      · omega
  have functions : Forall₂ (SpellsFunction (front ++ c :: next :: rest)) [functionAt front [c]]
      [⟨"<anonymous>", (functionAt front [c]).line (front ++ c :: next :: rest),
        ((functionAt front [c]).text (front ++ c :: next :: rest)).take bodyWidth⟩] :=
    honoured.functions
  rcases (forall₂_cons.mp functions).1.body with ⟨text, own, body⟩
  have single : text = [c] := Except.ok.inj (own.symm.trans spelled)
  have lengths := congrArg length body
  rw [single, length_take, length_take, length_singleton] at lengths
  simp only [bodyWidth] at lengths
  omega

/-- What is taken from the nodes of a tree is what the bytes between their places spell, and lines
are counted by the bytes before them, for all trees whose nodes stand between characters: this is so
exactly when every character of the script but the last is one byte. -/
theorem offsets_are_honoured_iff (source : List Char) :
    (∀ root : Node, root.IsPlacedIn source → root.IsHonouredIn source) ↔
      ∀ c ∈ source.dropLast, c.toNat < 128 := by
  constructor
  · intro all
    by_contra wide
    rcases exists_wide wide with ⟨front, c, next, rest, rfl, ascii, high⟩
    apply functionAt_not_isHonouredIn ascii high
    apply all
    have placed := functionAt_isPlacedIn front [c] (next :: rest)
    rwa [append_assoc, singleton_append] at placed
  · intro narrow root placed
    exact isHonouredIn_of_isNarrow narrow placed

/-- A script with an accent in front of its function. -/
def accentedScript : List Char := "/* é */ function f() \x7b\x7d".toList

/-- The name of the function. -/
def accentedName : Node := .mk "identifier" 18 19 [] []

/-- The function, which begins at the tenth byte and is named by a field. -/
def accentedFunction : Node :=
  .mk "function_declaration" 9 24 [accentedName] [("name", accentedName)]

/-- The tree of the whole script. -/
def accentedTree : Node := .mk "program" 0 24 [accentedFunction] []

theorem eq_of_accentedTree_has (has : accentedTree.Has node) :
    node = accentedTree ∨ node = accentedFunction ∨ node = accentedName := by
  induction has with
  | root => exact Or.inl rfl
  | child _ below ih =>
      rcases ih with rfl | rfl | rfl
      · exact Or.inr (Or.inl (mem_singleton.mp below))
      · exact Or.inr (Or.inr (mem_singleton.mp below))
      · cases below
  | @field _ target name _ named ih =>
      rcases ih with rfl | rfl | rfl
      · cases named
      · have only : target ∈ [("name", accentedName)].map Prod.snd := by
          rcases Option.map_eq_some_iff.mp named with ⟨pair, found, rfl⟩
          exact mem_map_of_mem (mem_of_find?_eq_some found)
        exact Or.inr (Or.inr (mem_singleton.mp only))
      · cases named

theorem accentedTree_isPlacedIn : accentedTree.IsPlacedIn accentedScript := by
  have cut : ∀ count, IsBoundary accentedScript (encoded (accentedScript.take count)).length :=
    fun count => ⟨accentedScript.take count, take_prefix count _, rfl⟩
  intro node has
  rcases eq_of_accentedTree_has has with rfl | rfl | rfl
  · exact ⟨cut 0, cut 23⟩
  · exact ⟨cut 8, cut 23⟩
  · exact ⟨cut 17, cut 18⟩

/-- Behind the accent, everything is read one place too late. -/
theorem accentedTree_not_isHonouredIn :
    accentedTree.IsPlacedIn accentedScript ∧
      accentedName.Spells accentedScript ['f'] ∧
      (Survey.Script.reading accentedScript (some accentedTree)).1 =
        [⟨"(", 1, "unction f() \x7b\x7d".toList⟩] ∧
      ¬ accentedTree.IsHonouredIn accentedScript := by
  have spelled : accentedName.Spells accentedScript ['f'] :=
    spells_of_boundaries (List.take_prefix 17 accentedScript) rfl
      (List.take_prefix 18 accentedScript) rfl
  have read : (Survey.Script.reading accentedScript (some accentedTree)).1 =
      [⟨"(", 1, "unction f() \x7b\x7d".toList⟩] := by decide +kernel
  refine ⟨accentedTree_isPlacedIn, spelled, read, ?_⟩
  intro honoured
  have nodes : (accentedTree.visited.filter fun node => (node.function? accentedScript).isSome) =
      [accentedFunction] := rfl
  have functions := honoured.functions
  rw [nodes, read] at functions
  rcases (forall₂_cons.mp functions).1.name accentedName rfl with ⟨text, own, name⟩
  cases own.symm.trans spelled
  exact absurd name (by decide)

end Node
end Script
end CodeQuality
