import CodeQuality.Proofs.Files.Stat
import Mathlib.Data.List.TakeWhile

namespace CodeQuality

open List

namespace Files

/-!
Names without slashes.

In a tree of files no name has a slash in it.  That is all it takes for the text of
a path to say which path it is: whatever a walk comes across has its own text.
-/

/-- Whether a text can be the name of an entry: it has no slash. -/
def isWhole (name : String) : Bool := !name.toList.contains '/'

mutual

/-- Whether all names in and below an entry are without slashes. -/
def Entry.hasWholeNames : Entry → Bool
  | .dir entries => wholeBelow entries
  | .file _ => true
  | .link _ => true

/-- Whether all names in and below a listing are without slashes. -/
def wholeBelow : List (String × Entry) → Bool
  | [] => true
  | (name, entry) :: rest => isWhole name && entry.hasWholeNames && wholeBelow rest

end

/-! ## The text of a path -/

variable {name : String} {entries : List (String × Entry)} {entry : Entry}

theorem notMem_of_isWhole (whole : isWhole name = true) : '/' ∉ name.toList := by
  simpa [isWhole] using whole

/-- The text of a path determines its names. -/
theorem relativeText_inj {first second : Path} (firstNames : first ≠ []) (secondNames : second ≠ [])
    (firstWhole : ∀ name ∈ first, isWhole name = true)
    (secondWhole : ∀ name ∈ second, isWhole name = true)
    (same : relativeText first = relativeText second) : first = second := by
  have cut : ∀ path : Path, path ≠ [] → (∀ name ∈ path, isWhole name = true) →
      (relativeText path).toList.splitOn '/' = path.map String.toList := by
    intro path names whole
    rw [relativeText, String.toList_intercalate]
    apply splitOn_intercalate
    · intro letters member
      rcases mem_map.mp member with ⟨name, inside, equal⟩
      exact equal ▸ notMem_of_isWhole (whole name inside)
    · simpa using names
  have pieces : first.map String.toList = second.map String.toList := by
    rw [← cut first firstNames firstWhole, ← cut second secondNames secondWhole, same]
  exact map_injective_iff.mpr (fun _ _ => String.toList_inj.mp) pieces

/-- The text of a path ends in its last name. -/
theorem relativeText_concat (path : Path) (name : String) :
    ∃ front, (relativeText (path ++ [name])).toList = front ++ name.toList := by
  by_cases top : path = []
  · exact ⟨[], by simp [relativeText, top]⟩
  · refine ⟨("/".intercalate path).toList ++ ['/'], ?_⟩
    rw [relativeText, String.intercalate_append_of_ne_nil top (by simp)]
    simp [String.toList_append]

/-- Different entries of a directory have different texts. -/
theorem absoluteText_concat_inj {root : Path} {first second : String}
    (same : absoluteText (root ++ [first]) = absoluteText (root ++ [second])) : first = second := by
  apply String.toList_inj.mp
  have letters := congrArg String.toList same
  by_cases top : root = []
  · simpa [absoluteText, top] using letters
  · rw [absoluteText, absoluteText, String.intercalate_append_of_ne_nil top (by simp),
      String.intercalate_append_of_ne_nil top (by simp)] at letters
    simpa [String.toList_append] using letters

/-- The suffix of a name is its last dot with what follows. -/
theorem suffix_eq (present : suffix name ≠ "") :
    ∃ before ending, name.toList = before ++ '.' :: ending ∧ '.' ∉ ending ∧
      suffix name = String.ofList ('.' :: ending) := by
  let ending := name.toList.reverse.takeWhile (· ≠ '.')
  have whole : ending ++ name.toList.reverse.dropWhile (· ≠ '.') = name.toList.reverse :=
    takeWhile_append_dropWhile
  have clear : '.' ∉ ending := by
    intro member
    exact absurd (mem_takeWhile_imp member) (by decide)
  have stops := head?_dropWhile_not (· ≠ '.') name.toList.reverse
  have spelled : suffix name = if ending.isEmpty ||
      ((name.toList.reverse.dropWhile (· ≠ '.')).drop 1).isEmpty ||
      ending.length == name.toList.reverse.length then ""
    else String.ofList ('.' :: ending.reverse) := rfl
  cases cut : name.toList.reverse.dropWhile (· ≠ '.') with
  | nil =>
      rw [cut, drop_nil, isEmpty_nil, Bool.or_true, Bool.true_or, if_pos rfl] at spelled
      exact absurd spelled present
  | cons head rest =>
      rw [cut] at whole spelled stops
      have dot : head = '.' := by simpa using stops
      refine ⟨rest.reverse, ending.reverse, ?_, by simpa using clear, ?_⟩
      · have turned := congrArg reverse whole
        rw [reverse_reverse, reverse_append, reverse_cons, append_assoc,
          dot] at turned
        exact turned.symm
      · by_cases short : (ending.isEmpty || ((head :: rest).drop 1).isEmpty ||
            ending.length == name.toList.reverse.length) = true
        · rw [if_pos short] at spelled
          exact absurd spelled present
        · rw [if_neg short] at spelled
          exact spelled

/-! ## What is found in a tree -/

theorem isWhole_of_mem (whole : wholeBelow entries = true) {pair : String × Entry}
    (member : pair ∈ entries) : isWhole pair.1 = true ∧ pair.2.hasWholeNames = true := by
  induction entries with
  | nil => cases member
  | cons head rest ih =>
      rw [wholeBelow, Bool.and_eq_true, Bool.and_eq_true] at whole
      rcases mem_cons.mp member with equal | inside
      · exact equal ▸ whole.1
      · exact ih whole.2 inside

theorem mem_of_find? (found : Entry.find? name entries = some entry) : (name, entry) ∈ entries := by
  induction entries with
  | nil => cases found
  | cons head rest ih =>
      rcases head with ⟨own, child⟩
      rw [Entry.find?] at found
      by_cases same : own = name
      · rw [if_pos same] at found
        cases found
        rw [same]
        exact mem_cons_self
      · rw [if_neg same] at found
        exact mem_cons_of_mem _ (ih found)

/-- What holds of an entry and passes from directories to what is in them holds of everything
below. -/
theorem Entry.of_at? (holds : Entry → Prop)
    (passes : ∀ {listing : List (String × Entry)} {pair : String × Entry},
      holds (.dir listing) → pair ∈ listing → holds pair.2) {child : Entry} {path : Path}
    (start : holds entry) (found : entry.at? path = some child) : holds child := by
  induction path generalizing entry with
  | nil =>
      cases found
      exact start
  | cons name rest ih =>
      cases entry with
      | file content => cases found
      | link target => cases found
      | dir listing =>
          rw [Entry.at?] at found
          cases inside : Entry.find? name listing with
          | none =>
              rw [inside] at found
              cases found
          | some next =>
              rw [inside] at found
              exact ih (passes start (mem_of_find? inside)) found

/-- What a path leads to stands somewhere in the tree. -/
theorem exists_at?_of_statFrom {root : Entry} {links : Nat} {here todo : Path}
    (found : statFrom root links here todo = .ok entry) : ∃ place, root.at? place = some entry := by
  fun_induction statFrom root links here todo with
  | case1 links here child at_here =>
      cases found
      exact ⟨here, at_here⟩
  | case3 links here rest listing at_here ih => exact ih found
  | case7 here next rest listing at_here down target child remaining written ih => exact ih found
  | case8 links here next rest listing at_here down child solid present ih => exact ih found
  | _ => cases found

theorem hasWholeNames_of_stat {files : Files} {path : Path}
    (whole : files.root.hasWholeNames = true) (found : files.stat path = .ok entry) :
    entry.hasWholeNames = true := by
  rcases exists_at?_of_statFrom found with ⟨place, there⟩
  exact Entry.of_at? (fun entry => entry.hasWholeNames = true)
    (fun whole member => (isWhole_of_mem whole member).2) whole there

/-! ## What a walk comes across -/

theorem isWhole_of_mem_fileNames {linked : Path → Bool} {here : Path}
    (whole : wholeBelow entries = true) (member : name ∈ fileNames linked here entries) :
    isWhole name = true := by
  rcases mem_map.mp member with ⟨pair, inside, equal⟩
  exact equal ▸ (isWhole_of_mem whole (mem_filter.mp inside).1).1

mutual

/-- A walk through an entry comes across names without slashes only, if it starts from such
names. -/
theorem Entry.isWhole_of_mem_visits (linked : Path → Bool) (kept : String → Bool) (here : Path)
    (start : ∀ name ∈ here, isWhole name = true) :
    ∀ entry : Entry, entry.hasWholeNames = true → ∀ visit ∈ entry.visits linked kept here,
      ∀ name ∈ visit.path ++ visit.files, isWhole name = true
  | .dir entries, whole, visit, member, name, inside => by
      rw [Entry.visits] at member
      rw [Entry.hasWholeNames] at whole
      rcases mem_cons.mp member with equal | below
      · rw [equal] at inside
        rcases mem_append.mp inside with above | listed
        · exact start name above
        · exact isWhole_of_mem_fileNames whole listed
      · exact isWhole_of_mem_visitsBelow linked kept here start entries whole visit below name inside
  | .file _, _, visit, member, _, _ => by
      rw [Entry.visits] at member
      cases member
  | .link _, _, visit, member, _, _ => by
      rw [Entry.visits] at member
      cases member

theorem isWhole_of_mem_visitsBelow (linked : Path → Bool) (kept : String → Bool) (here : Path)
    (start : ∀ name ∈ here, isWhole name = true) :
    ∀ entries : List (String × Entry), wholeBelow entries = true →
      ∀ visit ∈ visitsBelow linked kept here entries,
        ∀ name ∈ visit.path ++ visit.files, isWhole name = true
  | [], _, visit, member, _, _ => by
      rw [visitsBelow] at member
      cases member
  | (own, entry) :: rest, whole, visit, member, name, inside => by
      rw [wholeBelow, Bool.and_eq_true, Bool.and_eq_true] at whole
      rw [visitsBelow] at member
      rcases mem_append.mp member with first | later
      · by_cases entered : kept own = true
        · rw [if_pos entered] at first
          have longer : ∀ name ∈ here ++ [own], isWhole name = true :=
            forall_mem_append.mpr ⟨start, forall_mem_singleton.mpr whole.1.1⟩
          exact entry.isWhole_of_mem_visits linked kept (here ++ [own]) longer whole.1.2 visit first
            name inside
        · rw [if_neg entered] at first
          cases first
      · exact isWhole_of_mem_visitsBelow linked kept here start rest whole.2 visit later name inside

end

theorem isWhole_of_mem_visits {files : Files} {kept : String → Bool} {start : Path}
    (whole : files.root.hasWholeNames = true) {visit : Visit}
    (member : visit ∈ files.visits kept start) :
    ∀ name ∈ visit.path ++ visit.files, isWhole name = true := by
  rw [visits] at member
  cases found : files.stat start with
  | error cause =>
      rw [found] at member
      cases member
  | ok entry =>
      rw [found] at member
      cases entry with
      | file content => cases member
      | link target => cases member
      | dir listing =>
          exact Entry.isWhole_of_mem_visits _ kept [] (by simp) (.dir listing)
            (hasWholeNames_of_stat whole found) visit member

end Files
end CodeQuality
