import CodeQuality.Proofs.Files.Pruned

namespace CodeQuality

open List

namespace Files

/-!
Trees that agree outside some directories.

Two trees of files agree below a directory outside the directories whose names are not
kept if their listings are equal once pruned, and if every path that enters only kept
directories leads to the same in both, links followed.  Then everything that is asked
on such paths has the same answer, and so has a walk.  For trees whose links stay
outside the other directories the second condition follows from the first.
-/

/-- What a path leads to, without what is in a directory. -/
def glimpse (files : Files) (path : Path) : Except FileCause Entry :=
  (files.stat path).map Entry.hollow

/-- Two trees of files agree below a directory outside the directories whose names are not kept. -/
structure AgreeOutside (kept : String → Bool) (root : Path) (first second : Files) : Prop where
  /-- The listings are equal once pruned. -/
  listings : ∃ listing other, first.stat root = .ok (.dir listing) ∧
    second.stat root = .ok (.dir other) ∧ prunedBelow kept listing = prunedBelow kept other
  /-- Paths that enter only kept directories lead to the same. -/
  paths : ∀ path : Path, (∀ name ∈ path.dropLast, kept name = true) →
    first.glimpse (root ++ path) = second.glimpse (root ++ path)

/-! ## What is asked of a path -/

theorem isDir_eq_glimpse (files : Files) (path : Path) :
    files.isDir path = match files.glimpse path with | .ok (.dir _) => true | _ => false := by
  rw [isDir, glimpse]
  rcases files.stat path with cause | entry
  · rfl
  · cases entry <;> rfl

theorem holds_eq_glimpse (files : Files) (path : Path) :
    files.holds path = (files.glimpse path).isOk := by
  rw [holds, glimpse]
  cases files.stat path <;> rfl

theorem readLenient_eq_glimpse (files : Files) (path : Path) :
    files.readLenient path = match files.glimpse path with
      | .ok (.file content) => Text.unifyNewlines (Text.decodeLenient content.toBytes)
      | _ => [] := by
  rw [readLenient, open?, glimpse]
  rcases files.stat path with cause | entry
  · rfl
  · cases entry <;> rfl

theorem map_fst_prunedBelow (kept : String → Bool) (entries : List (String × Entry)) :
    (prunedBelow kept entries).map Prod.fst = entries.map Prod.fst := by
  induction entries with
  | nil => rfl
  | cons pair rest ih =>
      rcases pair with ⟨name, entry⟩
      rw [prunedBelow, map_cons, map_cons, ih]

namespace AgreeOutside

variable {kept : String → Bool} {root : Path} {first second : Files}
  (agree : AgreeOutside kept root first second)

include agree

theorem isDir_eq {path : Path} (inside : ∀ name ∈ path.dropLast, kept name = true) :
    first.isDir (root ++ path) = second.isDir (root ++ path) := by
  rw [isDir_eq_glimpse, isDir_eq_glimpse, agree.paths path inside]

theorem holds_eq {path : Path} (inside : ∀ name ∈ path.dropLast, kept name = true) :
    first.holds (root ++ path) = second.holds (root ++ path) := by
  rw [holds_eq_glimpse, holds_eq_glimpse, agree.paths path inside]

theorem readLenient_eq {path : Path} (inside : ∀ name ∈ path.dropLast, kept name = true) :
    first.readLenient (root ++ path) = second.readLenient (root ++ path) := by
  rw [readLenient_eq_glimpse, readLenient_eq_glimpse, agree.paths path inside]

theorem list_eq : first.list root = second.list root := by
  rcases agree.listings with ⟨listing, other, firstStat, secondStat, same⟩
  rw [list, list, firstStat, secondStat]
  simp only
  rw [← map_fst_prunedBelow kept listing, same, map_fst_prunedBelow]

/-- A walk that enters only kept directories comes across the same in both trees. -/
theorem visits_eq : first.visits kept root = second.visits kept root := by
  rcases agree.listings with ⟨listing, other, firstStat, secondStat, same⟩
  have pruned : (Entry.dir listing).pruned kept = (Entry.dir other).pruned kept := by
    rw [Entry.pruned, Entry.pruned, same]
  rw [visits, visits, firstStat, secondStat]
  simp only
  rw [← Entry.visits_pruned, pruned, Entry.visits_pruned]
  apply Entry.visits_congr kept
  · intro path inside
    exact agree.isDir_eq inside
  · intro name member
    cases member

end AgreeOutside

/-! ## Trees whose links stay outside -/

mutual

/-- Whether no link in or below an entry names a directory that is not kept. -/
def Entry.linksKeep (kept : String → Bool) : Entry → Bool
  | .dir entries => linksKeepBelow kept entries
  | .file _ => true
  | .link target => (names target).all kept

/-- Whether no link in or below a listing names a directory that is not kept. -/
def linksKeepBelow (kept : String → Bool) : List (String × Entry) → Bool
  | [] => true
  | (_, entry) :: rest => entry.linksKeep kept && linksKeepBelow kept rest

end

section

variable {kept : String → Bool}

theorem linksKeep_of_mem {entries : List (String × Entry)}
    (keep : linksKeepBelow kept entries = true) {pair : String × Entry} (member : pair ∈ entries) :
    pair.2.linksKeep kept = true := by
  induction entries with
  | nil => cases member
  | cons head rest ih =>
      rw [linksKeepBelow, Bool.and_eq_true] at keep
      rcases mem_cons.mp member with equal | inside
      · exact equal ▸ keep.1
      · exact ih keep.2 inside

theorem find?_prunedBelow (name : String) (entries : List (String × Entry)) :
    Entry.find? name (prunedBelow kept entries) = (Entry.find? name entries).map fun entry =>
      if kept name then entry.pruned kept else entry.hollow := by
  induction entries with
  | nil => rfl
  | cons pair rest ih =>
      rcases pair with ⟨own, entry⟩
      rw [prunedBelow, Entry.find?, Entry.find?]
      by_cases same : own = name
      · rw [if_pos same, if_pos same, same, Option.map_some]
      · rw [if_neg same, if_neg same, ih]

/-- Pruning changes what stands at a path through kept directories only by pruning it. -/
theorem Entry.at?_pruned (entry : Entry) {path : Path} (inside : ∀ name ∈ path, kept name = true) :
    (entry.pruned kept).at? path = (entry.at? path).map (Entry.pruned kept) := by
  induction path generalizing entry with
  | nil => rfl
  | cons name rest ih =>
      rw [forall_mem_cons] at inside
      cases entry with
      | file content => rfl
      | link target => rfl
      | dir listing =>
          rw [Entry.pruned, Entry.at?, Entry.at?, find?_prunedBelow]
          cases Entry.find? name listing with
          | none => rfl
          | some child =>
              simp only [Option.map_some, inside.1, if_true]
              exact ih child inside.2

theorem Entry.hollow_pruned (entry : Entry) : (entry.pruned kept).hollow = entry.hollow := by
  cases entry <;> simp [Entry.pruned, Entry.hollow]

theorem Entry.hollow_hollow (entry : Entry) : entry.hollow.hollow = entry.hollow := by
  cases entry <;> rfl

/-- At the end of a path through kept directories pruning changes nothing but what is inside. -/
theorem Entry.hollow_at?_pruned (entry : Entry) {path : Path}
    (inside : ∀ name ∈ path.dropLast, kept name = true) :
    ((entry.pruned kept).at? path).map Entry.hollow = (entry.at? path).map Entry.hollow := by
  induction path generalizing entry with
  | nil => exact congrArg some entry.hollow_pruned
  | cons name rest ih =>
      cases entry with
      | file content => rfl
      | link target => rfl
      | dir listing =>
          rw [Entry.pruned, Entry.at?, Entry.at?, find?_prunedBelow]
          cases Entry.find? name listing with
          | none => rfl
          | some child =>
              cases rest with
              | nil =>
                  by_cases entered : kept name = true
                  · simp [entered, Entry.at?, Entry.hollow_pruned]
                  · simp [entered, Entry.at?, Entry.hollow_hollow]
              | cons next more =>
                  rw [dropLast_cons_cons, forall_mem_cons] at inside
                  simp only [Option.map_some, inside.1, if_true]
                  exact ih child inside.2

variable {listing : List (String × Entry)} {here : Path}

/-- Listings that are equal once pruned have the same entry under a name, up to what is in it. -/
theorem find?_of_prunedBelow {other : List (String × Entry)}
    (same : prunedBelow kept listing = prunedBelow kept other) (name : String) :
    (Entry.find? name listing).map Entry.hollow = (Entry.find? name other).map Entry.hollow := by
  have shaped : ∀ entries : List (String × Entry),
      (Entry.find? name (prunedBelow kept entries)).map Entry.hollow =
        (Entry.find? name entries).map Entry.hollow := by
    intro entries
    rw [find?_prunedBelow, Option.map_map]
    congr 1
    funext entry
    by_cases entered : kept name = true
    · simp [entered, Entry.hollow_pruned]
    · simp [entered, Entry.hollow_hollow]
  rw [← shaped listing, same, shaped other]

theorem forall_mem_dropLast_append {todo : Path} (above : ∀ name ∈ here, kept name = true)
    (ahead : ∀ name ∈ todo.dropLast, kept name = true) :
    ∀ name ∈ (here ++ todo).dropLast, kept name = true := by
  intro name member
  by_cases empty : todo = []
  · rw [empty, append_nil] at member
    exact above name (dropLast_subset here member)
  · rw [dropLast_append_of_ne_nil empty] at member
    rcases mem_append.mp member with passed | coming
    · exact above name passed
    · exact ahead name coming

theorem forall_mem_of_dropLast {rest : Path} {next : String}
    (inside : ∀ name ∈ (here ++ next :: rest).dropLast, kept name = true) :
    (∀ name ∈ here, kept name = true) ∧ ∀ name ∈ rest.dropLast, kept name = true := by
  rw [dropLast_append_of_ne_nil (cons_ne_nil next rest), forall_mem_append] at inside
  refine ⟨inside.1, ?_⟩
  intro name member
  cases rest with
  | nil => cases member
  | cons second more =>
      apply inside.2
      rw [dropLast_cons_cons]
      exact mem_cons_of_mem _ member

/-- A link is seen as what it is. -/
theorem find?_eq_link {name target : String} {other : List (String × Entry)}
    (same : (Entry.find? name listing).map Entry.hollow =
      (Entry.find? name other).map Entry.hollow)
    (found : Entry.find? name listing = some (.link target)) :
    Entry.find? name other = some (.link target) := by
  rw [found] at same
  rcases Option.map_eq_some_iff.mp same.symm with ⟨entry, there, shape⟩
  cases entry with
  | dir listing => cases shape
  | file content => cases shape
  | link text =>
      rw [there]
      exact congrArg some shape

/-- The names in a link on the way of a path are kept. -/
theorem names_kept_of_link {root : Entry} (keep : (root.pruned kept).linksKeep kept = true)
    (above : ∀ name ∈ here, kept name = true) (found : root.at? here = some (.dir listing))
    {next target : String} (child : Entry.find? next listing = some (.link target)) :
    ∀ name ∈ names target, kept name = true := by
  have pruned : (root.pruned kept).at? here = some (.dir (prunedBelow kept listing)) := by
    rw [root.at?_pruned above, found]
    rfl
  have inside : linksKeepBelow kept (prunedBelow kept listing) = true :=
    Entry.of_at? (fun entry => entry.linksKeep kept = true)
      (fun keep member => linksKeep_of_mem keep member) keep pruned
  have link : Entry.find? next (prunedBelow kept listing) = some (.link target) := by
    rw [find?_prunedBelow, child]
    by_cases entered : kept next = true
    · simp [entered, Entry.pruned]
    · simp [entered, Entry.hollow]
  exact all_eq_true.mp (linksKeep_of_mem inside (mem_of_find? link))

/-- Links followed, trees that are equal once pruned lead to the same. -/
theorem statFrom_eq_of_pruned {first second : Entry}
    (same : first.pruned kept = second.pruned kept)
    (keep : (first.pruned kept).linksKeep kept = true) (links : Nat) (here todo : Path)
    (inside : ∀ name ∈ (here ++ todo).dropLast, kept name = true) :
    (statFrom first links here todo).map Entry.hollow =
      (statFrom second links here todo).map Entry.hollow := by
  -- The two trees have the same kinds of entries in the same places.
  have alike : ∀ {path : Path}, (∀ name ∈ path.dropLast, kept name = true) →
      (first.at? path).map Entry.hollow = (second.at? path).map Entry.hollow := by
    intro path through
    rw [← first.hollow_at?_pruned through, same, second.hollow_at?_pruned through]
  -- What a directory of the first tree has under a name, a directory of the second one has too.
  have listings : ∀ {path : Path} {listing : List (String × Entry)},
      (∀ name ∈ path, kept name = true) → first.at? path = some (.dir listing) →
      ∃ other, second.at? path = some (.dir other) ∧ ∀ name,
        (Entry.find? name listing).map Entry.hollow = (Entry.find? name other).map Entry.hollow := by
    intro path listing through found
    have pruned := second.at?_pruned through
    rw [← same, first.at?_pruned through, found] at pruned
    rcases Option.map_eq_some_iff.mp pruned.symm with ⟨entry, there, shape⟩
    cases entry with
    | file content => cases shape
    | link target => cases shape
    | dir other =>
        have equal : prunedBelow kept other = prunedBelow kept listing := Entry.dir.inj shape
        exact ⟨other, there, find?_of_prunedBelow equal.symm⟩
  fun_induction statFrom first links here todo with
  | case1 links here child at_here =>
      rw [append_nil] at inside
      have shown := alike inside
      rw [at_here] at shown
      rw [statFrom]
      cases there : second.at? here with
      | none =>
          rw [there] at shown
          cases shown
      | some other =>
          rw [there] at shown
          exact congrArg Except.ok (Option.some.inj shown)
  | case2 links here at_here =>
      rw [append_nil] at inside
      have shown := alike inside
      rw [at_here] at shown
      rw [statFrom, Option.map_eq_none_iff.mp shown.symm]
  | case3 links here rest listing at_here ih =>
      rcases forall_mem_of_dropLast inside with ⟨above, ahead⟩
      rcases listings above at_here with ⟨other, there, _⟩
      rw [statFrom, there]
      apply ih
      exact forall_mem_dropLast_append (fun name member =>
        above name (dropLast_subset here member)) ahead
  | case4 links here next rest listing at_here down missing =>
      rcases listings (forall_mem_of_dropLast inside).1 at_here with ⟨other, there, under⟩
      have absent := under next
      rw [missing] at absent
      rw [statFrom, there]
      simp only [down, if_false, Option.map_eq_none_iff.mp absent.symm]
  | case5 here next rest listing at_here down target child =>
      rcases listings (forall_mem_of_dropLast inside).1 at_here with ⟨other, there, under⟩
      rw [statFrom, there]
      simp only [down, if_false, find?_eq_link (under next) child]
  | case6 here next rest listing at_here down remaining child =>
      rcases listings (forall_mem_of_dropLast inside).1 at_here with ⟨other, there, under⟩
      rw [statFrom, there]
      simp only [down, if_false, if_true, find?_eq_link (under next) child]
  | case7 here next rest listing at_here down target child remaining written ih =>
      rcases forall_mem_of_dropLast inside with ⟨above, ahead⟩
      rcases listings above at_here with ⟨other, there, under⟩
      have through := names_kept_of_link keep above at_here child
      rw [statFrom, there]
      simp only [down, written, if_false, find?_eq_link (under next) child]
      apply ih
      apply forall_mem_dropLast_append
      · intro name member
        split at member
        · cases member
        · exact above name member
      · exact forall_mem_dropLast_append through ahead
  | case8 links here next rest listing at_here down child solid present ih =>
      rcases listings (forall_mem_of_dropLast inside).1 at_here with ⟨other, there, under⟩
      have shown := under next
      rw [present] at shown
      rcases Option.map_eq_some_iff.mp shown.symm with ⟨entry, found, shape⟩
      have further := ih (append_cons here next rest ▸ inside)
      rw [statFrom, there]
      simp only [down, if_false, found]
      cases entry with
      | dir below => exact further
      | file content => exact further
      | link target =>
          cases child with
          | dir below => cases shape
          | file content => cases shape
          | link text => exact (solid text rfl).elim
  | case9 links here next rest entry solid at_here =>
      have above := (forall_mem_of_dropLast inside).1
      have shown := alike fun name member => above name (dropLast_subset here member)
      rw [at_here] at shown
      rcases Option.map_eq_some_iff.mp shown.symm with ⟨other, there, shape⟩
      rw [statFrom, there]
      cases other with
      | file content => rfl
      | link target => rfl
      | dir listing =>
          cases entry with
          | dir below => exact (solid below rfl).elim
          | file content => cases shape
          | link target => cases shape
  | case10 links here next rest at_here =>
      have above := (forall_mem_of_dropLast inside).1
      have shown := alike fun name member => above name (dropLast_subset here member)
      rw [at_here] at shown
      rw [statFrom, Option.map_eq_none_iff.mp shown.symm]

/-- Trees of files that are equal once pruned, and whose links stay outside the directories that are
not kept, agree outside these directories. -/
theorem AgreeOutside.of_pruned {first second : Files} (rooted : first.root = .dir listing)
    (same : first.root.pruned kept = second.root.pruned kept)
    (keep : (first.root.pruned kept).linksKeep kept = true) :
    AgreeOutside kept [] first second where
  listings := by
    cases other : second.root with
    | dir below =>
        refine ⟨listing, below, by rw [stat_nil, rooted], by rw [stat_nil, other], ?_⟩
        rw [rooted, other, Entry.pruned, Entry.pruned] at same
        exact Entry.dir.inj same
    | file content =>
        rw [rooted, other, Entry.pruned, Entry.pruned] at same
        cases same
    | link target =>
        rw [rooted, other, Entry.pruned, Entry.pruned] at same
        cases same
  paths := by
    intro path inside
    exact statFrom_eq_of_pruned same keep maxLinks [] path inside

end

end Files
end CodeQuality
