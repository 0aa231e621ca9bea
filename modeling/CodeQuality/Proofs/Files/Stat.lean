import CodeQuality.Analysis
import Mathlib.Data.List.Basic

namespace CodeQuality
namespace Files

/-!
Following paths.

What stands above something that is there is a directory, links followed.  So the
directory that is analysed for a path is one, also when the path is that of a file.
-/

variable {name : String} {entry : Entry} {files : Files}

/-- The directory above something that a path leads to.  The induction follows the names and the
links still allowed, so the names that the target of a link puts in front are covered too. -/
theorem statFrom_concat {root : Entry} {links : Nat} {here before : Path}
    (found : statFrom root links here (before ++ [name]) = .ok entry) :
    ∃ listing, statFrom root links here before = .ok (.dir listing) := by
  fun_induction statFrom root links here before with
  | case1 links here child at_here =>
      rw [List.nil_append, statFrom, at_here] at found
      cases child with
      | dir listing => exact ⟨listing, rfl⟩
      | file content => cases found
      | link target => cases found
  | case2 links here at_here =>
      rw [List.nil_append, statFrom, at_here] at found
      cases found
  | case3 links here rest listing at_here ih =>
      rw [List.cons_append, statFrom, at_here] at found
      exact ih found
  | case4 links here next rest listing at_here down missing =>
      rw [List.cons_append, statFrom, at_here] at found
      simp only [down, missing, if_false] at found
      cases found
  | case5 here next rest listing at_here down target child =>
      rw [List.cons_append, statFrom, at_here] at found
      simp only [down, child, if_false] at found
      cases found
  | case6 here next rest listing at_here down remaining child =>
      rw [List.cons_append, statFrom, at_here] at found
      simp only [down, child, if_false, if_true] at found
      cases found
  | case7 here next rest listing at_here down target child remaining written ih =>
      rw [List.cons_append, statFrom, at_here] at found
      simp only [down, child, written, if_false, ← List.append_assoc] at found
      exact ih found
  | case8 links here next rest listing at_here down child solid present ih =>
      rw [List.cons_append, statFrom, at_here] at found
      simp only [down, present, if_false] at found
      exact ih found
  | case9 links here next rest other solid at_here =>
      rw [List.cons_append, statFrom, at_here] at found
      cases other with
      | dir listing => exact (solid listing rfl).elim
      | file content => cases found
      | link target => cases found
  | case10 links here next rest at_here =>
      rw [List.cons_append, statFrom, at_here] at found
      cases found

/-- The root is where it is. -/
theorem stat_nil (files : Files) : files.stat [] = .ok files.root := by
  rw [stat, statFrom, Entry.at?]

/-- What is right below the root is found by its name. -/
theorem stat_singleton {listing : List (String × Entry)} (rooted : files.root = .dir listing)
    (down : name ≠ "..") (present : Entry.find? name listing = some entry)
    (solid : entry.isLink = false) : files.stat [name] = .ok entry := by
  have placed : files.root.at? [name] = some entry := by
    rw [rooted, Entry.at?, present]
    rfl
  rw [stat, statFrom, Entry.at?, rooted]
  cases entry with
  | link target => cases solid
  | file content =>
      simp only [down, if_false, present]
      rw [statFrom, List.nil_append, ← rooted, placed]
  | dir below =>
      simp only [down, if_false, present]
      rw [statFrom, List.nil_append, ← rooted, placed]

theorem stat_singleton_absent {listing : List (String × Entry)}
    (rooted : files.root = .dir listing) (down : name ≠ "..")
    (missing : Entry.find? name listing = none) : files.stat [name] = .error .absent := by
  rw [stat, statFrom, Entry.at?, rooted]
  simp only [down, if_false, missing]

/-- A path leads to a directory exactly when there is a listing. -/
theorem isDir_eq_true {path : Path} :
    files.isDir path = true ↔ ∃ listing, files.stat path = .ok (.dir listing) := by
  rw [isDir]
  cases files.stat path with
  | error cause => simp
  | ok entry => cases entry <;> simp

/-- Below the root of a tree, what is no directory stands in one. -/
theorem isDir_dropLast {path : Path} (rooted : ∃ listing, files.root = .dir listing)
    (found : files.stat path = .ok entry) (solid : ∀ listing, entry ≠ .dir listing) :
    files.isDir path.dropLast = true := by
  rcases List.eq_nil_or_concat path with empty | ⟨before, name, cut⟩
  · rcases rooted with ⟨listing, whole⟩
    rw [empty, stat_nil] at found
    have equal : files.root = entry := Except.ok.inj found
    exact absurd (equal.symm.trans whole) (solid listing)
  · rw [cut, List.concat_eq_append] at found
    rw [cut, List.concat_eq_append, List.dropLast_concat]
    exact isDir_eq_true.mpr (statFrom_concat found)

theorem fromRoot_slash (files : Files) : files.fromRoot "/" = [] := by
  have absolute : isAbsolute "/" = true := by decide
  rw [fromRoot, if_pos absolute]
  decide

theorem resolve_slash (files : Files) : files.resolve "/" = .ok [] := by
  rw [resolve, realPath?, fromRoot_slash, realPathFrom]

end Files

namespace Analysis

open Files

/-- What is analysed is a directory, if the tree of files is one. -/
theorem isDir_of_rootOf {files : Files} {path : String} {root : Path}
    (rooted : ∃ listing, files.root = .dir listing) (found : rootOf files path = .ok root) :
    files.isDir root = true := by
  rw [rootOf] at found
  cases resolved : files.resolve path with
  | error fault =>
      rw [resolved] at found
      cases found
  | ok target =>
      rw [resolved] at found
      simp only [bind, Except.bind] at found
      cases reached : files.stat target with
      | error cause =>
          rw [reached] at found
          cases found
      | ok entry =>
          rw [reached] at found
          cases entry with
          | dir listing =>
              cases found
              exact isDir_eq_true.mpr ⟨listing, reached⟩
          | file content =>
              cases found
              exact isDir_dropLast rooted reached (by simp)
          | link target =>
              cases found
              exact isDir_dropLast rooted reached (by simp)

/-- The root of the tree of files can be analysed like every other directory. -/
theorem rootOf_slash (files : Files) (rooted : ∃ listing, files.root = .dir listing) :
    rootOf files "/" = .ok [] := by
  rcases rooted with ⟨listing, whole⟩
  have reached : files.stat [] = .ok (.dir listing) := by
    rw [stat_nil, whole]
  rw [rootOf, resolve_slash]
  simp only [bind, Except.bind, reached]
  rfl

end Analysis
end CodeQuality
