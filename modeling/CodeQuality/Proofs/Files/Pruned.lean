import CodeQuality.Proofs.Files.Names

namespace CodeQuality
namespace Files

/-!
Trees without what lies inside some directories.

A tree is pruned by emptying the directories whose names are not kept.  A walk that
enters only directories with kept names gives the same visits for a tree and for what
is left of it.  The directories that are emptied are still there, and so are links:
where a link leads is not a matter of the tree alone, and it is said separately.
-/

/-- An entry without what is in it. -/
def Entry.hollow : Entry → Entry
  | .dir _ => .dir []
  | .file content => .file content
  | .link target => .link target

mutual

/-- An entry with the directories emptied whose names are not kept. -/
def Entry.pruned (kept : String → Bool) : Entry → Entry
  | .dir entries => .dir (prunedBelow kept entries)
  | .file content => .file content
  | .link target => .link target

/-- A listing with the directories emptied whose names are not kept. -/
def prunedBelow (kept : String → Bool) : List (String × Entry) → List (String × Entry)
  | [] => []
  | (name, entry) :: rest =>
      (name, if kept name then entry.pruned kept else entry.hollow) :: prunedBelow kept rest

end

section

variable (kept : String → Bool)

/-! ## Walks -/

theorem isFolder_prunedBelow (linked : Path → Bool) (path : Path) (name : String) (entry : Entry) :
    (if kept name then entry.pruned kept else entry.hollow).isFolder linked path =
      entry.isFolder linked path := by
  cases entry <;> by_cases entered : kept name = true <;>
    simp [entered, Entry.pruned, Entry.hollow, Entry.isFolder]

/-- Pruning keeps the names of a listing and which of them are folders. -/
theorem listed_prunedBelow (isListed : Bool → Bool) (linked : Path → Bool) (here : Path)
    (entries : List (String × Entry)) :
    ((prunedBelow kept entries).filter fun (name, entry) =>
        isListed (entry.isFolder linked (here ++ [name]))).map Prod.fst =
      (entries.filter fun (name, entry) =>
        isListed (entry.isFolder linked (here ++ [name]))).map Prod.fst := by
  induction entries with
  | nil => rfl
  | cons pair rest ih =>
      rcases pair with ⟨name, entry⟩
      rw [prunedBelow, List.filter_cons, List.filter_cons]
      simp only [isFolder_prunedBelow]
      by_cases shown : isListed (entry.isFolder linked (here ++ [name])) = true
      · rw [if_pos shown, if_pos shown, List.map_cons, List.map_cons, ih]
      · rw [if_neg shown, if_neg shown, ih]

mutual

/-- A walk gives the same for an entry and for what is left of it. -/
theorem Entry.visits_pruned (linked : Path → Bool) (here : Path) :
    ∀ entry : Entry, (entry.pruned kept).visits linked kept here = entry.visits linked kept here
  | .dir entries => by
      have folders := listed_prunedBelow kept id linked here entries
      have others := listed_prunedBelow kept not linked here entries
      rw [Entry.pruned, Entry.visits, Entry.visits, visitsBelow_pruned linked here entries]
      simp only [folderNames, fileNames]
      exact congrArg₂ (fun folders files => (⟨here, folders, files⟩ : Visit) ::
        visitsBelow linked kept here entries) folders others
  | .file content => by
      rw [Entry.pruned]
  | .link target => by
      rw [Entry.pruned]

theorem visitsBelow_pruned (linked : Path → Bool) (here : Path) :
    ∀ entries : List (String × Entry),
      visitsBelow linked kept here (prunedBelow kept entries) = visitsBelow linked kept here entries
  | [] => by
      rw [prunedBelow]
  | (name, entry) :: rest => by
      rw [prunedBelow, visitsBelow, visitsBelow, visitsBelow_pruned linked here rest]
      by_cases entered : kept name = true
      · rw [if_pos entered, if_pos entered, if_pos entered,
          entry.visits_pruned linked (here ++ [name])]
      · rw [if_neg entered, if_neg entered]

end

mutual

/-- A walk that enters only kept directories is the part of the whole walk that stays in them. -/
theorem Entry.filter_visits (linked : Path → Bool) (here : Path) :
    ∀ entry : Entry, ((entry.visits linked (fun _ => true) here).filter fun visit =>
        visit.path.all kept) =
      if here.all kept then entry.visits linked kept here else []
  | .dir entries => by
      rw [Entry.visits, Entry.visits, List.filter_cons, filter_visitsBelow linked here entries]
      by_cases inside : here.all kept = true
      · simp only [inside, if_true]
      · simp only [inside, if_false, Bool.false_eq_true]
  | .file content => by
      rw [Entry.visits, Entry.visits, List.filter_nil, ite_self]
  | .link target => by
      rw [Entry.visits, Entry.visits, List.filter_nil, ite_self]

theorem filter_visitsBelow (linked : Path → Bool) (here : Path) :
    ∀ entries : List (String × Entry),
      ((visitsBelow linked (fun _ => true) here entries).filter fun visit =>
        visit.path.all kept) =
      if here.all kept then visitsBelow linked kept here entries else []
  | [] => by
      rw [visitsBelow, visitsBelow, List.filter_nil, ite_self]
  | (name, entry) :: rest => by
      have deeper : (here ++ [name]).all kept = (here.all kept && kept name) := by
        rw [List.all_append, List.all_cons, List.all_nil, Bool.and_true]
      rw [visitsBelow, visitsBelow, if_pos rfl, List.filter_append,
        filter_visitsBelow linked here rest, entry.filter_visits linked (here ++ [name]), deeper]
      by_cases inside : here.all kept = true <;> by_cases entered : kept name = true <;>
        simp [inside, entered]

end

variable {linked other : Path → Bool}

/-- Where links lead matters to a walk only on paths that enter kept directories. -/
theorem listed_congr
    (agree : ∀ path : Path, (∀ name ∈ path.dropLast, kept name = true) → linked path = other path)
    (isListed : Bool → Bool) {here : Path} (inside : ∀ name ∈ here, kept name = true)
    (entries : List (String × Entry)) :
    (entries.filter fun (name, entry) => isListed (entry.isFolder linked (here ++ [name]))) =
      entries.filter fun (name, entry) => isListed (entry.isFolder other (here ++ [name])) := by
  apply List.filter_congr
  rintro ⟨name, entry⟩ _
  have same : linked (here ++ [name]) = other (here ++ [name]) := by
    apply agree
    rw [List.dropLast_concat]
    exact inside
  cases entry with
  | dir entries => rfl
  | file content => rfl
  | link target => simp only [Entry.isFolder, same]

mutual

theorem Entry.visits_congr
    (agree : ∀ path : Path, (∀ name ∈ path.dropLast, kept name = true) → linked path = other path)
    (here : Path) (inside : ∀ name ∈ here, kept name = true) :
    ∀ entry : Entry, entry.visits linked kept here = entry.visits other kept here
  | .dir entries => by
      have folders := listed_congr kept agree id inside entries
      have others := listed_congr kept agree not inside entries
      simp only [id] at folders
      rw [Entry.visits, Entry.visits, visitsBelow_congr agree here inside entries]
      simp only [folderNames, fileNames, folders, others]
  | .file content => by
      rw [Entry.visits, Entry.visits]
  | .link target => by
      rw [Entry.visits, Entry.visits]

theorem visitsBelow_congr
    (agree : ∀ path : Path, (∀ name ∈ path.dropLast, kept name = true) → linked path = other path)
    (here : Path) (inside : ∀ name ∈ here, kept name = true) :
    ∀ entries : List (String × Entry),
      visitsBelow linked kept here entries = visitsBelow other kept here entries
  | [] => by
      rw [visitsBelow, visitsBelow]
  | (name, entry) :: rest => by
      rw [visitsBelow, visitsBelow, visitsBelow_congr agree here inside rest]
      by_cases entered : kept name = true
      · have deeper : ∀ own ∈ here ++ [name], kept own = true :=
          List.forall_mem_append.mpr ⟨inside, List.forall_mem_singleton.mpr entered⟩
        rw [if_pos entered, if_pos entered, entry.visits_congr agree (here ++ [name]) deeper]
      · rw [if_neg entered, if_neg entered]

end

end

/-- In a tree of files, too, a walk that enters only kept directories is a part of the whole walk. -/
theorem filter_visits (files : Files) (kept : String → Bool) (start : Path) :
    ((files.visits (fun _ => true) start).filter fun visit => visit.path.all kept) =
      files.visits kept start := by
  rw [visits, visits]
  rcases files.stat start with cause | entry
  · rfl
  · cases entry with
    | dir listing => exact Entry.filter_visits kept _ [] (.dir listing)
    | file content => rfl
    | link target => rfl

theorem kept_of_mem_visits {files : Files} {kept : String → Bool} {start : Path} {visit : Visit}
    (member : visit ∈ files.visits kept start) : ∀ name ∈ visit.path, kept name = true := by
  rw [← filter_visits] at member
  exact List.all_eq_true.mp (List.mem_filter.mp member).2

end Files
end CodeQuality
