import CodeQuality.Proofs.Files.Growth
import Mathlib.Data.List.Induction
import Mathlib.Data.List.Nodup

namespace CodeQuality

open List

namespace Files

/-!
What a walk comes across.

A walk goes down from directory to directory and lists what is in them.  Two other
descriptions are compared with it.  One looks up the names of a path one after the
other in the tree, so that no link is ever followed.  The other goes down name by name
wherever that leads, links followed, and excludes paths afterwards.  All three give
the same paths, and a walk gives each of them once.

The names in a directory are its own: each is there once, and none of them is the name
that leads to the directory above.
-/

mutual

/-- Whether all names in and below an entry are the own names of their directories. -/
def Entry.hasOwnNames : Entry → Bool
  | .dir entries => decide (entries.map Prod.fst).Nodup && ownNamesBelow entries
  | .file _ => true
  | .link _ => true

/-- Whether no name in a listing leads up, and all names below it are own names. -/
def ownNamesBelow : List (String × Entry) → Bool
  | [] => true
  | (name, entry) :: rest => name != ".." && entry.hasOwnNames && ownNamesBelow rest

end

/-! ## Own names -/

variable {entries : List (String × Entry)} {entry : Entry}

theorem own_of_mem (own : ownNamesBelow entries = true) {pair : String × Entry}
    (member : pair ∈ entries) : pair.1 ≠ ".." ∧ pair.2.hasOwnNames = true := by
  induction entries with
  | nil => cases member
  | cons head rest ih =>
      rw [ownNamesBelow, Bool.and_eq_true, Bool.and_eq_true, bne_iff_ne] at own
      rcases mem_cons.mp member with equal | inside
      · exact equal ▸ own.1
      · exact ih own.2 inside

theorem Entry.own_of_dir (own : (Entry.dir entries).hasOwnNames = true) :
    (entries.map Prod.fst).Nodup ∧ ownNamesBelow entries = true := by
  rw [Entry.hasOwnNames, Bool.and_eq_true, decide_eq_true_eq] at own
  exact own

/-- Where each name is there once, what is listed under a name is what is found under it. -/
theorem find?_eq_some_iff (once : (entries.map Prod.fst).Nodup) {name : String} :
    Entry.find? name entries = some entry ↔ (name, entry) ∈ entries := by
  refine ⟨mem_of_find?, ?_⟩
  intro member
  induction entries with
  | nil => cases member
  | cons head rest ih =>
      rw [map_cons, nodup_cons] at once
      rw [Entry.find?]
      rcases mem_cons.mp member with equal | later
      · rw [← equal, if_pos rfl]
      · have different : head.1 ≠ name := by
          intro same
          exact once.1 (mem_map.mpr ⟨(name, entry), later, same.symm⟩)
        rw [if_neg different]
        exact ih once.2 later

theorem Entry.own_of_at? {child : Entry} {path : Path} (own : entry.hasOwnNames = true)
    (found : entry.at? path = some child) : child.hasOwnNames = true :=
  Entry.of_at? (fun entry => entry.hasOwnNames = true)
    (fun own member => (own_of_mem (Entry.own_of_dir own).2 member).2) own found

theorem own_of_stat {files : Files} {path : Path} (own : files.root.hasOwnNames = true)
    (found : files.stat path = .ok entry) : entry.hasOwnNames = true := by
  rcases exists_at?_of_statFrom found with ⟨place, there⟩
  exact Entry.own_of_at? own there

/-! ## The visits of a walk -/

/-- The visit of a directory with a listing. -/
def visitOf (linked : Path → Bool) (path : Path) (listing : List (String × Entry)) : Visit :=
  ⟨path, folderNames linked path listing, fileNames linked path listing⟩

section

variable (linked : Path → Bool) (kept : String → Bool)

mutual

/-- The visits of an entry are those of the directories at paths with kept names. -/
theorem Entry.mem_visits (here : Path) (visit : Visit) :
    ∀ entry : Entry, entry.hasOwnNames = true →
      (visit ∈ entry.visits linked kept here ↔ ∃ below listing,
        entry.at? below = some (.dir listing) ∧ (∀ name ∈ below, kept name = true) ∧
          visit = visitOf linked (here ++ below) listing)
  | .dir entries, own => by
      have names := Entry.own_of_dir own
      rw [Entry.visits, mem_cons, mem_visitsBelow here visit entries names.2]
      constructor
      · rintro (equal | ⟨name, entry, below, listing, member, entered, found, passed, equal⟩)
        · exact ⟨[], entries, rfl, by simp, by rw [append_nil]; exact equal⟩
        · refine ⟨name :: below, listing, ?_, forall_mem_cons.mpr ⟨entered, passed⟩, equal⟩
          rw [Entry.at?, (find?_eq_some_iff names.1).mpr member]
          exact found
      · rintro ⟨below, listing, found, passed, equal⟩
        cases below with
        | nil =>
            cases found
            rw [append_nil] at equal
            exact Or.inl equal
        | cons name rest =>
            rw [forall_mem_cons] at passed
            rw [Entry.at?] at found
            cases inside : Entry.find? name entries with
            | none =>
                rw [inside] at found
                cases found
            | some entry =>
                rw [inside] at found
                exact Or.inr ⟨name, entry, rest, listing, mem_of_find? inside, passed.1, found,
                  passed.2, equal⟩
  | .file content, _ => by
      rw [Entry.visits]
      refine ⟨fun member => (not_mem_nil member).elim, ?_⟩
      rintro ⟨below, listing, found, _⟩
      cases below <;> cases found
  | .link target, _ => by
      rw [Entry.visits]
      refine ⟨fun member => (not_mem_nil member).elim, ?_⟩
      rintro ⟨below, listing, found, _⟩
      cases below <;> cases found

theorem mem_visitsBelow (here : Path) (visit : Visit) :
    ∀ entries : List (String × Entry), ownNamesBelow entries = true →
      (visit ∈ visitsBelow linked kept here entries ↔ ∃ name entry below listing,
        (name, entry) ∈ entries ∧ kept name = true ∧ entry.at? below = some (.dir listing) ∧
          (∀ name ∈ below, kept name = true) ∧
          visit = visitOf linked (here ++ name :: below) listing)
  | [], _ => by
      rw [visitsBelow]
      refine ⟨fun member => (not_mem_nil member).elim, ?_⟩
      rintro ⟨name, entry, below, listing, member, _⟩
      cases member
  | (own, child) :: rest, names => by
      rw [ownNamesBelow, Bool.and_eq_true, Bool.and_eq_true] at names
      have first : visit ∈ (if kept own then child.visits linked kept (here ++ [own]) else []) ↔
          kept own = true ∧ ∃ below listing, child.at? below = some (.dir listing) ∧
            (∀ name ∈ below, kept name = true) ∧
            visit = visitOf linked (here ++ own :: below) listing := by
        by_cases entered : kept own = true
        · rw [if_pos entered, child.mem_visits (here ++ [own]) visit names.1.2]
          simp only [entered, true_and, append_assoc, singleton_append]
        · simp only [entered, if_false, Bool.false_eq_true, not_mem_nil, false_and]
      rw [visitsBelow, mem_append, first, mem_visitsBelow here visit rest names.2]
      constructor
      · rintro (⟨entered, below, listing, found⟩ | ⟨name, entry, below, listing, member, found⟩)
        · exact ⟨own, child, below, listing, mem_cons_self, entered, found⟩
        · exact ⟨name, entry, below, listing, mem_cons_of_mem _ member, found⟩
      · rintro ⟨name, entry, below, listing, member, entered, found⟩
        rcases mem_cons.mp member with equal | later
        · cases equal
          exact Or.inl ⟨entered, below, listing, found⟩
        · exact Or.inr ⟨name, entry, below, listing, later, entered, found⟩

end

mutual

/-- No directory is visited twice. -/
theorem Entry.nodup_visits (here : Path) :
    ∀ entry : Entry, entry.hasOwnNames = true →
      ((entry.visits linked kept here).map (·.path)).Nodup
  | .dir entries, own => by
      have names := Entry.own_of_dir own
      rw [Entry.visits, map_cons, nodup_cons]
      refine ⟨?_, nodup_visitsBelow here entries names.1 names.2⟩
      intro member
      rcases mem_map.mp member with ⟨visit, visited, same⟩
      rcases (mem_visitsBelow linked kept here visit entries names.2).mp visited with
        ⟨name, _, below, _, _, _, _, _, equal⟩
      rw [equal, visitOf] at same
      exact cons_ne_nil name below (append_right_eq_self.mp same)
  | .file _, _ => by
      rw [Entry.visits]
      exact nodup_nil
  | .link _, _ => by
      rw [Entry.visits]
      exact nodup_nil

theorem nodup_visitsBelow (here : Path) :
    ∀ entries : List (String × Entry), (entries.map Prod.fst).Nodup →
      ownNamesBelow entries = true →
      ((visitsBelow linked kept here entries).map (·.path)).Nodup
  | [], _, _ => by
      rw [visitsBelow]
      exact nodup_nil
  | (own, child) :: rest, once, names => by
      rw [ownNamesBelow, Bool.and_eq_true, Bool.and_eq_true] at names
      rw [map_cons, nodup_cons] at once
      have later := nodup_visitsBelow here rest once.2 names.2
      rw [visitsBelow]
      by_cases entered : kept own = true
      · rw [if_pos entered, map_append]
        refine (child.nodup_visits (here ++ [own]) names.1.2).append later ?_
        -- Paths through different names of one directory differ at that name.
        intro path first second
        rcases mem_map.mp first with ⟨visit, visited, same⟩
        rcases (child.mem_visits linked kept (here ++ [own]) visit names.1.2).mp visited with
          ⟨below, _, _, _, equal⟩
        rcases mem_map.mp second with ⟨other, passed, another⟩
        rcases (mem_visitsBelow linked kept here other rest names.2).mp passed with
          ⟨name, entry, deeper, _, member, _, _, _, unequal⟩
        rw [equal, visitOf] at same
        rw [unequal, visitOf, ← same, append_assoc, append_cancel_left_eq] at another
        have shared : name = own := (cons.inj another).1
        exact once.1 (mem_map.mpr ⟨(name, entry), member, shared⟩)
      · rw [if_neg entered, nil_append]
        exact later

end

end

/-! ## What is listed -/

/-- The paths of the entries that a walk lists as no folders and whose names are wanted. -/
def walked (files : Files) (kept isWanted : String → Bool) (start : Path) : List Path :=
  (files.visits kept start).flatMap fun visit =>
    (visit.files.filter isWanted).map fun name => visit.path ++ [name]

section

variable {files : Files} {kept isWanted : String → Bool} {start : Path}
  {listing : List (String × Entry)}

theorem mem_fileNames {linked : Path → Bool} {here : Path} (once : (entries.map Prod.fst).Nodup)
    {name : String} :
    name ∈ fileNames linked here entries ↔ ∃ entry, Entry.find? name entries = some entry ∧
      entry.isFolder linked (here ++ [name]) = false := by
  rw [fileNames, mem_map]
  constructor
  · rintro ⟨⟨own, entry⟩, member, rfl⟩
    rw [mem_filter, Bool.not_eq_true'] at member
    exact ⟨entry, (find?_eq_some_iff once).mpr member.1, member.2⟩
  · rintro ⟨entry, found, noFolder⟩
    refine ⟨(name, entry), mem_filter.mpr ⟨mem_of_find? found, ?_⟩, rfl⟩
    simp only [noFolder, Bool.not_false]

/-- What a walk lists stands in the tree at a path of directories with kept names. -/
theorem mem_walked (own : files.root.hasOwnNames = true)
    (found : files.stat start = .ok (.dir listing)) {folder : Path} {name : String} :
    folder ++ [name] ∈ files.walked kept isWanted start ↔
      isWanted name = true ∧ (∀ above ∈ folder, kept above = true) ∧
        ∃ entry, (Entry.dir listing).at? (folder ++ [name]) = some entry ∧
          entry.isFolder (fun path => files.isDir (start ++ path)) (folder ++ [name]) = false := by
  have names := own_of_stat own found
  rw [walked, visits, found, mem_flatMap]
  constructor
  · rintro ⟨visit, visited, listed⟩
    rcases (Entry.mem_visits _ kept [] visit (.dir listing) names).mp visited with
      ⟨below, inner, there, passed, rfl⟩
    rcases mem_map.mp listed with ⟨last, chosen, equal⟩
    rw [mem_filter] at chosen
    rcases append_inj' equal rfl with ⟨rfl, same⟩
    cases same
    have once := (Entry.own_of_dir (Entry.own_of_at? names there)).1
    rcases (mem_fileNames once).mp chosen.1 with ⟨entry, inside, noFolder⟩
    exact ⟨chosen.2, passed, entry, (Entry.at?_concat there name).trans inside, noFolder⟩
  · rintro ⟨wanted, passed, entry, there, noFolder⟩
    rcases Entry.exists_dir_of_at?_concat there with ⟨inner, above⟩
    have once := (Entry.own_of_dir (Entry.own_of_at? names above)).1
    rw [Entry.at?_concat above] at there
    refine ⟨visitOf _ folder inner,
      (Entry.mem_visits _ kept [] _ (.dir listing) names).mpr
        ⟨folder, inner, above, passed, rfl⟩, ?_⟩
    exact mem_map.mpr ⟨name,
      mem_filter.mpr ⟨(mem_fileNames once).mpr ⟨entry, there, noFolder⟩, wanted⟩, rfl⟩

/-- A walk from something that is no directory lists nothing. -/
theorem walked_of_not_isDir (noDirectory : files.isDir start = false) :
    files.walked kept isWanted start = [] := by
  rw [walked, visits]
  rw [isDir] at noDirectory
  cases reached : files.stat start with
  | error cause => rfl
  | ok entry =>
      rw [reached] at noDirectory
      cases entry with
      | dir listing => cases noDirectory
      | file content => rfl
      | link target => rfl

/-- A walk lists nothing twice. -/
theorem nodup_walked (own : files.root.hasOwnNames = true) :
    (files.walked kept isWanted start).Nodup := by
  cases isDirectory : files.isDir start with
  | false =>
      rw [walked_of_not_isDir isDirectory]
      exact nodup_nil
  | true =>
      rcases isDir_eq_true.mp isDirectory with ⟨listing, found⟩
      have names := own_of_stat own found
      rw [walked, visits, found, nodup_flatMap]
      constructor
      · intro visit visited
        rcases (Entry.mem_visits _ kept [] visit (.dir listing) names).mp visited with
          ⟨below, inner, there, _, rfl⟩
        have once := (Entry.own_of_dir (Entry.own_of_at? names there)).1
        apply Nodup.map (fun first second same => by simpa using same)
        exact (once.sublist (filter_sublist.map Prod.fst)).filter _
      · have apart := Entry.nodup_visits (fun path => files.isDir (start ++ path)) kept []
          (.dir listing) names
        rw [Nodup, pairwise_map] at apart
        refine apart.imp ?_
        intro first second different path early late
        rcases mem_map.mp early with ⟨name, _, rfl⟩
        rcases mem_map.mp late with ⟨other, _, same⟩
        exact different (append_inj' same rfl).1.symm

end

/-! ## Going down name by name -/

/-- An entry is found below a directory by looking up one name after the other, each in the
directory that the names before it lead to, links followed. -/
inductive Found (files : Files) (start : Path) : Path → Entry → Prop
  | child {name : String} {entry : Entry} {listing : List (String × Entry)}
      (opened : files.stat start = .ok (.dir listing))
      (there : Entry.find? name listing = some entry) : Found files start [name] entry
  | deeper {folder : Path} {above entry : Entry} {name : String}
      {listing : List (String × Entry)} (upper : Found files start folder above)
      (opened : files.stat (start ++ folder) = .ok (.dir listing))
      (there : Entry.find? name listing = some entry) :
      Found files start (folder ++ [name]) entry

/-- A link that leads to a directory is found at a path. -/
def LinkedDirectory (files : Files) (start path : Path) : Prop :=
  (∃ target, Found files start path (.link target)) ∧ files.isDir (start ++ path) = true

section

variable {files : Files} {start : Path} {listing : List (String × Entry)}

variable {path : Path}

/-- From a directory on, a path through the tree leads where it seems to. -/
theorem placeFrom_append {tree : Entry} {links : Nat} {here todo directory : Path}
    (placed : placeFrom tree links here todo = .ok directory)
    (found : tree.at? directory = some (.dir listing))
    (own : (Entry.dir listing).hasOwnNames = true) {below : Path}
    (there : (Entry.dir listing).at? below = some entry) (solid : entry.isLink = false) :
    placeFrom tree links here (todo ++ below) = .ok (directory ++ below) := by
  induction below using reverseRecOn generalizing entry with
  | nil => simpa only [append_nil] using placed
  | append_singleton folder name ih =>
      rcases Entry.exists_dir_of_at?_concat there with ⟨inner, above⟩
      have whole : tree.at? (directory ++ folder) = some (.dir inner) := by
        rw [Entry.at?_append, found, Option.bind_some, above]
      rcases placeFrom_concat (ih above rfl) whole name with ⟨remaining, equal⟩
      rw [Entry.at?_concat above] at there
      have down : name ≠ ".." :=
        (own_of_mem (Entry.own_of_dir (Entry.own_of_at? own above)).2 (mem_of_find? there)).1
      rw [← append_assoc, equal, placeFrom, whole]
      cases entry with
      | link target => cases solid
      | dir entries => simp only [down, if_false, there, placeFrom, append_assoc]
      | file content => simp only [down, if_false, there, placeFrom, append_assoc]

theorem stat_append (own : files.root.hasOwnNames = true)
    (found : files.stat start = .ok (.dir listing)) {below : Path}
    (there : (Entry.dir listing).at? below = some entry) (solid : entry.isLink = false) :
    files.stat (start ++ below) = .ok entry := by
  rcases statFrom_eq_ok.mp found with ⟨place, placed, standing⟩
  refine statFrom_eq_ok.mpr ⟨place ++ below,
    placeFrom_append placed standing (own_of_stat own found) there solid, ?_⟩
  rw [Entry.at?_append, standing, Option.bind_some, there]

/-- What stands in the tree is found. -/
theorem found_of_at? (own : files.root.hasOwnNames = true)
    (found : files.stat start = .ok (.dir listing)) (present : path ≠ [])
    (there : (Entry.dir listing).at? path = some entry) : Found files start path entry := by
  induction path using reverseRecOn generalizing entry with
  | nil => exact absurd rfl present
  | append_singleton folder name ih =>
      rcases Entry.exists_dir_of_at?_concat there with ⟨inner, above⟩
      rw [Entry.at?_concat above] at there
      cases folder with
      | nil =>
          cases above
          exact .child found there
      | cons first rest =>
          exact .deeper (ih (cons_ne_nil first rest) above)
            (stat_append own found above rfl) there

/-- What is found stands in the tree, unless a link to a directory is on the way. -/
theorem Found.at? (own : files.root.hasOwnNames = true)
    (opened : files.stat start = .ok (.dir listing)) (found : Found files start path entry)
    (direct : ∀ before, before <+: path → ¬ LinkedDirectory files start before) :
    (Entry.dir listing).at? path = some entry := by
  induction found with
  | child top there =>
      rw [opened] at top
      cases top
      rw [Entry.at?_singleton]
      exact there
  | @deeper folder above entry name inner upper inside there ih =>
      have standing := ih fun before short => direct before (short.trans (prefix_append _ _))
      cases above with
      | dir entries =>
          rw [stat_append own opened standing rfl] at inside
          cases inside
          rw [Entry.at?_concat standing]
          exact there
      | file content =>
          rw [stat_append own opened standing rfl] at inside
          cases inside
      | link target =>
          exact absurd ⟨⟨target, upper⟩, isDir_eq_true.mpr ⟨inner, inside⟩⟩
            (direct folder (prefix_append _ _))

theorem Found.opened (found : Found files start path entry) :
    ∃ listing, files.stat start = .ok (.dir listing) := by
  induction found with
  | child opened => exact ⟨_, opened⟩
  | deeper _ _ _ ih => exact ih

/-- A directory in the tree is no link. -/
theorem Found.eq_dir (own : files.root.hasOwnNames = true)
    (opened : files.stat start = .ok (.dir listing)) {inner : List (String × Entry)}
    (found : Found files start path entry)
    (there : (Entry.dir listing).at? path = some (.dir inner)) : entry = .dir inner := by
  cases found with
  | child top inside =>
      rw [opened] at top
      cases top
      rw [Entry.at?_singleton] at there
      exact Option.some.inj (inside.symm.trans there)
  | @deeper folder _ _ name entries _ inside below =>
      rcases Entry.exists_dir_of_at?_concat there with ⟨outer, above⟩
      rw [stat_append own opened above rfl] at inside
      cases inside
      rw [Entry.at?_concat above] at there
      exact Option.some.inj (below.symm.trans there)

/-- What stands in the tree is found without passing a link to a directory. -/
theorem direct_of_at? (own : files.root.hasOwnNames = true)
    (opened : files.stat start = .ok (.dir listing))
    (there : (Entry.dir listing).at? path = some entry)
    (noDirectory : files.isDir (start ++ path) = false) {before : Path} (short : before <+: path) :
    ¬ LinkedDirectory files start before := by
  rintro ⟨⟨target, link⟩, isDirectory⟩
  rcases short with ⟨rest, rfl⟩
  cases rest with
  | nil =>
      rw [append_nil, isDirectory] at noDirectory
      cases noDirectory
  | cons name deeper =>
      rw [Entry.at?_append] at there
      rcases Option.bind_eq_some_iff.mp there with ⟨middle, above, inside⟩
      cases middle with
      | dir inner => cases link.eq_dir own opened above
      | file content => cases inside
      | link target => cases inside

/-- An entry in the tree is listed as a folder when its path leads to a directory. -/
theorem isFolder_eq_isDir (own : files.root.hasOwnNames = true)
    (opened : files.stat start = .ok (.dir listing))
    (there : (Entry.dir listing).at? path = some entry) :
    entry.isFolder (fun path => files.isDir (start ++ path)) path =
      files.isDir (start ++ path) := by
  cases entry with
  | link target => rfl
  | dir entries => rw [isDir, stat_append own opened there rfl, Entry.isFolder]
  | file content => rw [isDir, stat_append own opened there rfl, Entry.isFolder]

end

/-- The paths that a walk lists are those of entries that are no directories, which are found
through kept directories and not through links to directories. -/
theorem mem_walked_iff {files : Files} {kept isWanted : String → Bool} {start : Path}
    (own : files.root.hasOwnNames = true) {folder : Path} {name : String} :
    folder ++ [name] ∈ files.walked kept isWanted start ↔
      isWanted name = true ∧ (∀ above ∈ folder, kept above = true) ∧
        (∃ entry, Found files start (folder ++ [name]) entry) ∧
        files.isDir (start ++ (folder ++ [name])) = false ∧
        ∀ before, before <+: folder ++ [name] → ¬ LinkedDirectory files start before := by
  cases isDirectory : files.isDir start with
  | false =>
      rw [walked_of_not_isDir isDirectory]
      refine ⟨fun member => (not_mem_nil member).elim, ?_⟩
      rintro ⟨_, _, ⟨entry, found⟩, _⟩
      rw [isDir_eq_true.mpr found.opened] at isDirectory
      cases isDirectory
  | true =>
      rcases isDir_eq_true.mp isDirectory with ⟨listing, opened⟩
      rw [mem_walked own opened]
      constructor
      · rintro ⟨wanted, passed, entry, there, noFolder⟩
        rw [isFolder_eq_isDir own opened there] at noFolder
        exact ⟨wanted, passed, ⟨entry, found_of_at? own opened (by simp) there⟩, noFolder,
          fun before => direct_of_at? own opened there noFolder⟩
      · rintro ⟨wanted, passed, ⟨entry, found⟩, noDirectory, direct⟩
        have there := found.at? own opened direct
        refine ⟨wanted, passed, entry, there, ?_⟩
        rw [isFolder_eq_isDir own opened there]
        exact noDirectory

end Files
end CodeQuality
