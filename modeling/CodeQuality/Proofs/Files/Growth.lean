import CodeQuality.Proofs.Files.Pruned

namespace CodeQuality

open List

namespace Files

/-!
Trees of files that grow.

The program changes a tree of files in two ways: it makes a directory where nothing
is, and it puts content into a file, which may be a new one.  Either way a single
place changes, and everything else stays as it was, apart from the listings above
that place.  `Put` says just this, and the other lemmas are derived from it.

Nothing is ever removed, and no link is made.  So a path that leads somewhere keeps
leading there, while a path that leads nowhere may come to lead somewhere: a directory
on its way may be made, also one that is only passed through on the way up again.
-/

namespace Entry

/-! ## Single entries -/

theorem find?_place_self (name : String) (entry : Entry) (entries : List (String × Entry)) :
    find? name (place name entry entries) = some entry := by
  induction entries with
  | nil => simp [place, find?]
  | cons pair rest ih =>
      rcases pair with ⟨own, old⟩
      rw [place]
      split
      · simp [find?]
      · split
        · simp [find?]
        · next different later =>
            rw [find?, if_neg (Ne.symm different)]
            exact ih

theorem find?_place_of_ne {name other : String} (different : other ≠ name) (entry : Entry)
    (entries : List (String × Entry)) :
    find? other (place name entry entries) = find? other entries := by
  induction entries with
  | nil => simp [place, find?, Ne.symm different]
  | cons pair rest ih =>
      rcases pair with ⟨own, old⟩
      rw [place]
      split
      · next same =>
          subst same
          simp [find?, Ne.symm different]
      · split
        · simp [find?, Ne.symm different]
        · rw [find?, find?, ih]

theorem at?_append (entry : Entry) (first second : Path) :
    entry.at? (first ++ second) = (entry.at? first).bind fun child => child.at? second := by
  induction first generalizing entry with
  | nil => rfl
  | cons name rest ih =>
      cases entry with
      | file content => rfl
      | link target => rfl
      | dir listing =>
          rw [cons_append, at?, at?]
          cases find? name listing with
          | none => rfl
          | some child => exact ih child

theorem at?_singleton (entry : Entry) (name : String) :
    entry.at? [name] = find? name entry.entries := by
  cases entry with
  | file content => rfl
  | link target => rfl
  | dir listing =>
      rw [at?, entries]
      cases find? name listing <;> rfl

/-- What a directory has under a name stands at the place of that name. -/
theorem at?_concat {entry : Entry} {here : Path} {listing : List (String × Entry)}
    (found : entry.at? here = some (.dir listing)) (name : String) :
    entry.at? (here ++ [name]) = find? name listing := by
  rw [at?_append, found, Option.bind_some, at?_singleton, entries]

/-- What stands above an entry is a directory. -/
theorem exists_dir_of_at?_concat {entry child : Entry} {here : Path} {name : String}
    (found : entry.at? (here ++ [name]) = some child) :
    ∃ listing, entry.at? here = some (.dir listing) := by
  rw [at?_append] at found
  rcases Option.bind_eq_some_iff.mp found with ⟨parent, above, inside⟩
  rw [at?_singleton] at inside
  cases parent with
  | dir listing => exact ⟨listing, above⟩
  | file content => cases inside
  | link target => cases inside

/-! ## Putting an entry at a place -/

theorem at?_put_append (entry new : Entry) (target below : Path) :
    (entry.put new target).at? (target ++ below) = new.at? below := by
  induction target generalizing entry with
  | nil => rfl
  | cons name rest ih =>
      rw [put, cons_append, at?, find?_place_self]
      exact ih _

/-- Outside the place of the new entry only listings change, provided that the place is in a
directory that is there. -/
theorem hollow_at?_put {entry : Entry} {target other : Path} (new : Entry)
    (reached : ∀ above name, target = above ++ [name] →
      ∃ listing, entry.at? above = some (.dir listing)) (outside : ¬ target <+: other) :
    ((entry.put new target).at? other).map hollow = (entry.at? other).map hollow := by
  induction target generalizing entry other with
  | nil => exact absurd (List.nil_prefix) outside
  | cons name rest ih =>
      have isDir : ∃ listing, entry = .dir listing := by
        rcases reached _ _ (dropLast_append_getLast (cons_ne_nil name rest)).symm with
          ⟨listing, above⟩
        cases rest with
        | nil => exact ⟨listing, Option.some.inj above⟩
        | cons next further =>
            cases entry with
            | dir entries => exact ⟨entries, rfl⟩
            | file content => cases above
            | link path => cases above
      rcases isDir with ⟨listing, rfl⟩
      cases other with
      | nil => rfl
      | cons own below =>
          rw [put, at?, at?, entries]
          by_cases same : own = name
          · subst same
            have deeper : ¬ rest <+: below := by
              intro inside
              exact outside ((prefix_cons_inj own).mpr inside)
            rw [find?_place_self]
            cases child : find? own listing with
            | some next =>
                refine ih ?_ deeper
                intro above last cut
                have found := reached (own :: above) last (by rw [cut, cons_append])
                rw [at?, child] at found
                exact found
            | none =>
                -- With nothing under the name, the place itself is the one that is new.
                cases rest with
                | nil => exact absurd nil_prefix deeper
                | cons next further =>
                    rcases reached _ _
                      (dropLast_append_getLast (cons_ne_nil own (next :: further))).symm with
                      ⟨above, found⟩
                    rw [dropLast_cons_cons, at?, child] at found
                    cases found
          · rw [find?_place_of_ne same]

end Entry

/-! ## Changes of a tree -/

/-- A tree after something without entries has been put at a place, where nothing or a file was.
Only listings have changed elsewhere. -/
structure Put (before after : Entry) (place : Path) (new : Entry) : Prop where
  here : after.at? place = some new
  elsewhere : ∀ other, other ≠ place →
    (after.at? other).map Entry.hollow = (before.at? other).map Entry.hollow
  vacant : before.at? place = none ∨
    (∃ content, before.at? place = some (.file content)) ∧ ∃ content, new = .file content
  solid : new.isLink = false

theorem Put.of_put {root new : Entry} {place : Path}
    (reached : ∀ above name, place = above ++ [name] →
      ∃ listing, root.at? above = some (.dir listing)) (bare : new.entries = [])
    (vacant : root.at? place = none ∨
      (∃ content, root.at? place = some (.file content)) ∧ ∃ content, new = .file content)
    (solid : new.isLink = false) : Put root (root.put new place) place new where
  here := by
    have found := root.at?_put_append new place []
    rw [append_nil] at found
    exact found
  elsewhere := by
    intro other different
    by_cases below : place <+: other
    · rcases below with ⟨rest, rfl⟩
      cases rest with
      | nil => exact absurd (append_nil place) different
      | cons name further =>
          have nothingNew : new.at? (name :: further) = none := by
            cases new with
            | file content => rfl
            | link target => rfl
            | dir listing =>
                have empty : listing = [] := bare
                rw [empty]
                rfl
          have nothingOld : root.at? (place ++ name :: further) = none := by
            rw [Entry.at?_append]
            rcases vacant with absent | ⟨⟨content, file⟩, _⟩
            · rw [absent]
              rfl
            · rw [file]
              rfl
          rw [Entry.at?_put_append, nothingNew, nothingOld]
    · exact Entry.hollow_at?_put new reached below
  vacant := vacant
  solid := solid

namespace Put

variable {before after new : Entry} {place : Path}

/-- A directory stays one. -/
theorem dir_of_dir (put : Put before after place new) {other : Path}
    {listing : List (String × Entry)} (found : before.at? other = some (.dir listing)) :
    ∃ entries, after.at? other = some (.dir entries) := by
  have different : other ≠ place := by
    intro same
    rw [same] at found
    rcases put.vacant with absent | ⟨⟨content, file⟩, _⟩
    · rw [absent] at found
      cases found
    · rw [file] at found
      cases found
  have shown := put.elsewhere other different
  rw [found] at shown
  rcases Option.map_eq_some_iff.mp shown with ⟨entry, there, shape⟩
  cases entry with
  | dir entries => exact ⟨entries, there⟩
  | file content => cases shape
  | link target => cases shape

/-- Files elsewhere keep their content. -/
theorem file_iff (put : Put before after place new) {other : Path} (different : other ≠ place)
    (content : Content) :
    after.at? other = some (.file content) ↔ before.at? other = some (.file content) := by
  have only : ∀ found : Option Entry,
      found.map Entry.hollow = some (.file content) ↔ found = some (.file content) := by
    intro found
    cases found with
    | none => simp
    | some entry => cases entry <;> simp [Entry.hollow]
  rw [← only, put.elsewhere other different, only]

/-- Links are where they were. -/
theorem link_iff (put : Put before after place new) (other : Path) (target : String) :
    after.at? other = some (.link target) ↔ before.at? other = some (.link target) := by
  by_cases same : other = place
  · subst same
    have notNew : after.at? other ≠ some (.link target) := by
      intro link
      have equal : new = .link target := Option.some.inj (put.here.symm.trans link)
      have solid := put.solid
      rw [equal] at solid
      cases solid
    have notOld : before.at? other ≠ some (.link target) := by
      intro link
      rcases put.vacant with absent | ⟨⟨content, file⟩, _⟩
      · rw [absent] at link
        cases link
      · rw [file] at link
        cases link
    exact iff_of_false notNew notOld
  · have only : ∀ found : Option Entry,
        found.map Entry.hollow = some (.link target) ↔ found = some (.link target) := by
      intro found
      cases found with
      | none => simp
      | some entry => cases entry <;> simp [Entry.hollow]
    rw [← only, put.elsewhere other same, only]

end Put

/-! ## Trees that hold no less -/

/-- Every directory and every file of one tree is a directory or a file in another, too, and the
links are the same.  What files hold may differ. -/
structure Extends (before after : Files) : Prop where
  workingDirectory : after.workingDirectory = before.workingDirectory
  dir : ∀ place listing, before.root.at? place = some (.dir listing) →
    ∃ entries, after.root.at? place = some (.dir entries)
  file : ∀ place content, before.root.at? place = some (.file content) →
    ∃ changed, after.root.at? place = some (.file changed)
  link : ∀ place target, after.root.at? place = some (.link target) ↔
    before.root.at? place = some (.link target)

namespace Extends

theorem refl (files : Files) : Extends files files where
  workingDirectory := rfl
  dir := fun _ listing found => ⟨listing, found⟩
  file := fun _ content found => ⟨content, found⟩
  link := fun _ _ => Iff.rfl

theorem trans {first second third : Files} (early : Extends first second)
    (late : Extends second third) : Extends first third where
  workingDirectory := late.workingDirectory.trans early.workingDirectory
  dir := by
    intro place listing found
    rcases early.dir place listing found with ⟨entries, between⟩
    exact late.dir place entries between
  file := by
    intro place content found
    rcases early.file place content found with ⟨changed, between⟩
    exact late.file place changed between
  link := fun place target => (late.link place target).trans (early.link place target)

theorem of_put {before after : Files} {place : Path} {new : Entry}
    (same : after.workingDirectory = before.workingDirectory)
    (put : Put before.root after.root place new) : Extends before after where
  workingDirectory := same
  dir := fun _ _ found => put.dir_of_dir found
  file := by
    intro other content found
    by_cases equal : other = place
    · subst equal
      rcases put.vacant with absent | ⟨_, changed, shape⟩
      · rw [absent] at found
        cases found
      · exact ⟨changed, shape ▸ put.here⟩
    · exact ⟨content, (put.file_iff equal content).mpr found⟩
  link := put.link_iff

theorem fromRoot_eq {before after : Files} (extends_ : Extends before after) (text : String) :
    after.fromRoot text = before.fromRoot text := by
  rw [fromRoot, fromRoot, extends_.workingDirectory]

end Extends

/-! ## The place of a path -/

variable {root : Entry} {links : Nat} {here todo path : Path}

/-- A path leads to what stands at its place. -/
theorem statFrom_eq_ok {entry : Entry} :
    statFrom root links here todo = .ok entry ↔
      ∃ place, placeFrom root links here todo = .ok place ∧ root.at? place = some entry := by
  fun_induction statFrom root links here todo with
  | case1 links here child at_here =>
      rw [placeFrom]
      constructor
      · intro found
        cases found
        exact ⟨here, rfl, at_here⟩
      · rintro ⟨place, equal, there⟩
        cases equal
        rw [at_here] at there
        exact congrArg Except.ok (Option.some.inj there)
  | case2 links here at_here =>
      rw [placeFrom]
      constructor
      · intro found
        cases found
      · rintro ⟨place, equal, there⟩
        cases equal
        rw [at_here] at there
        cases there
  | case3 links here rest listing at_here ih =>
      rw [placeFrom, at_here]
      exact ih
  | case4 links here next rest listing at_here down missing =>
      rw [placeFrom, at_here]
      simp only [down, missing, if_false]
      constructor
      · intro found
        cases found
      · rintro ⟨place, equal, there⟩
        split at equal
        · cases equal
          rw [Entry.at?_concat at_here, missing] at there
          cases there
        · cases equal
  | case5 here next rest listing at_here down target child =>
      rw [placeFrom, at_here]
      simp [down, child]
  | case6 here next rest listing at_here down remaining child =>
      rw [placeFrom, at_here]
      simp [down, child]
  | case7 here next rest listing at_here down target child remaining written ih =>
      rw [placeFrom, at_here]
      simp only [down, child, written, if_false]
      exact ih
  | case8 links here next rest listing at_here down child solid present ih =>
      rw [placeFrom, at_here]
      simp only [down, present, if_false]
      exact ih
  | case9 links here next rest other solid at_here =>
      rw [placeFrom, at_here]
      cases other with
      | dir listing => exact (solid listing rfl).elim
      | file content => simp
      | link target => simp
  | case10 links here next rest at_here =>
      rw [placeFrom, at_here]
      simp

/-- The place of a path is in a directory that is there, if it is not the root. -/
theorem dir_above_placeFrom {place : Path}
    (start : ∀ above name, here = above ++ [name] → todo = [] →
      ∃ listing, root.at? above = some (.dir listing))
    (placed : placeFrom root links here todo = .ok place) :
    ∀ above name, place = above ++ [name] → ∃ listing, root.at? above = some (.dir listing) := by
  fun_induction placeFrom root links here todo with
  | case1 links here =>
      cases placed
      intro above name cut
      exact start above name cut rfl
  | case2 links here rest listing at_here ih =>
      refine ih ?_ placed
      intro above name cut _
      -- Above the directory above a directory there is a directory again.
      rcases eq_nil_or_concat here with empty | ⟨front, last, whole⟩
      · rw [empty] at cut
        cases above <;> cases cut
      · rw [concat_eq_append] at whole
        rw [whole] at at_here cut
        rw [dropLast_concat] at cut
        rcases Entry.exists_dir_of_at?_concat at_here with ⟨entries, found⟩
        rw [cut] at found
        exact Entry.exists_dir_of_at?_concat found
  | case3 links here next listing at_here down missing =>
      cases placed
      intro above name cut
      have ends : here = above := (append_inj' cut rfl).1
      exact ⟨listing, ends ▸ at_here⟩
  | case7 here next rest listing at_here down target child remaining written ih =>
      refine ih ?_ placed
      intro above name cut _
      split at cut
      · cases above <;> cases cut
      · rw [cut] at at_here
        exact Entry.exists_dir_of_at?_concat at_here
  | case8 links here next rest listing at_here down child solid present ih =>
      refine ih ?_ placed
      intro above name cut _
      have ends : here = above := (append_inj' cut rfl).1
      exact ⟨listing, ends ▸ at_here⟩
  | _ => cases placed

/-- The place of a path stays its place when the tree grows, as long as there is something at it
then.  That may have been there before, or it may have been put there. -/
theorem Extends.placeFrom_eq {before after : Files} (extends_ : Extends before after)
    {place : Path} {entry : Entry} (arrived : after.root.at? place = some entry)
    (placed : placeFrom before.root links here todo = .ok place) :
    placeFrom after.root links here todo = .ok place := by
  fun_induction placeFrom before.root links here todo with
  | case1 links here =>
      rw [placeFrom]
      exact placed
  | case2 links here rest listing at_here ih =>
      rcases extends_.dir here listing at_here with ⟨entries, there⟩
      rw [placeFrom, there]
      exact ih placed
  | case3 links here next listing at_here down missing =>
      cases placed
      rcases extends_.dir here listing at_here with ⟨entries, there⟩
      have known := Entry.at?_concat at_here next
      rw [placeFrom, there]
      simp only [down, if_false, ← Entry.at?_concat there, arrived]
      cases entry with
      | dir below => exact placeFrom.eq_1 ..
      | file content => exact placeFrom.eq_1 ..
      | link target =>
          rw [extends_.link, known, missing] at arrived
          cases arrived
  | case7 here next rest listing at_here down target child remaining written ih =>
      rcases extends_.dir here listing at_here with ⟨entries, there⟩
      have link : Entry.find? next entries = some (.link target) := by
        rw [← Entry.at?_concat there, extends_.link, Entry.at?_concat at_here, child]
      rw [placeFrom, there]
      simp only [down, link, written, if_false]
      exact ih placed
  | case8 links here next rest listing at_here down child solid present ih =>
      rcases extends_.dir here listing at_here with ⟨entries, there⟩
      have known : before.root.at? (here ++ [next]) = some child := by
        rw [Entry.at?_concat at_here, present]
      rw [placeFrom, there]
      simp only [down, if_false, ← Entry.at?_concat there]
      cases child with
      | dir below =>
          rcases extends_.dir _ below known with ⟨changed, still⟩
          rw [still]
          exact ih placed
      | file content =>
          rcases extends_.file _ content known with ⟨changed, still⟩
          rw [still]
          exact ih placed
      | link target => exact (solid target rfl).elim
  | _ => cases placed

/-- Where a path leads to a directory, a further name is looked up in it. -/
theorem placeFrom_concat {directory : Path} {listing : List (String × Entry)}
    (placed : placeFrom root links here todo = .ok directory)
    (found : root.at? directory = some (.dir listing)) (name : String) :
    ∃ remaining, placeFrom root links here (todo ++ [name]) =
      placeFrom root remaining directory [name] := by
  fun_induction placeFrom root links here todo with
  | case1 links here =>
      cases placed
      exact ⟨links, rfl⟩
  | case2 links here rest entries at_here ih =>
      rcases ih placed with ⟨remaining, equal⟩
      refine ⟨remaining, ?_⟩
      rw [cons_append, placeFrom, at_here]
      exact equal
  | case3 links here next entries at_here down missing =>
      cases placed
      rw [Entry.at?_concat at_here, missing] at found
      cases found
  | case7 here next rest entries at_here down target child left written ih =>
      rcases ih placed with ⟨remaining, equal⟩
      refine ⟨remaining, ?_⟩
      rw [cons_append, placeFrom, at_here]
      simp only [down, child, written, if_false, ← append_assoc]
      exact equal
  | case8 links here next rest entries at_here down child solid present ih =>
      rcases ih placed with ⟨remaining, equal⟩
      refine ⟨remaining, ?_⟩
      rw [cons_append, placeFrom, at_here]
      simp only [down, present, if_false]
      exact equal
  | _ => cases placed

/-! ## Writing and making directories -/

theorem of_write {files changed : Files} {shown : String} {content : Content}
    (written : files.write path shown content = .ok changed) :
    ∃ place, placeFrom files.root maxLinks [] path = .ok place ∧
      changed.workingDirectory = files.workingDirectory ∧
      Put files.root changed.root place (.file content) := by
  rw [write] at written
  cases placed : placeFrom files.root maxLinks [] path with
  | error cause =>
      rw [placed] at written
      cases written
  | ok place =>
      have reached := dir_above_placeFrom (by simp) placed
      rw [placed] at written
      cases there : files.root.at? place with
      | none =>
          simp only [there] at written
          cases written
          exact ⟨place, rfl, rfl, .of_put reached rfl (.inl there) rfl⟩
      | some entry =>
          cases entry with
          | dir listing =>
              simp only [there] at written
              cases written
          | link target =>
              simp only [there] at written
              cases written
          | file old =>
              simp only [there] at written
              cases written
              exact ⟨place, rfl, rfl, .of_put reached rfl (.inr ⟨⟨old, there⟩, content, rfl⟩) rfl⟩

/-- The place for a new directory is the place of its path.  A path that ends by going up is none:
it leads to something whenever the rest of it does. -/
theorem placeFrom_of_absent {directory : Path} {name : String} {listing : List (String × Entry)}
    {cause : FileCause} (placed : placeFrom root links [] path = .ok directory)
    (found : root.at? directory = some (.dir listing))
    (missing : root.at? (directory ++ [name]) = none)
    (absent : statFrom root links [] (path ++ [name]) = .error cause) :
    placeFrom root links [] (path ++ [name]) = .ok (directory ++ [name]) := by
  rcases placeFrom_concat placed found name with ⟨remaining, equal⟩
  have unfolded : placeFrom root remaining directory [name] =
      if name = ".." then .ok directory.dropLast else .ok (directory ++ [name]) := by
    rw [Entry.at?_concat found] at missing
    rw [placeFrom, found]
    simp only [missing, if_true, placeFrom.eq_1]
  rw [equal, unfolded]
  by_cases up : name = ".."
  · -- The directory above is there as well, against the assumption.
    rw [unfolded, if_pos up] at equal
    have there : ∃ entry, root.at? directory.dropLast = some entry := by
      rcases eq_nil_or_concat directory with empty | ⟨front, last, whole⟩
      · rw [empty] at found ⊢
        exact ⟨_, found⟩
      · rw [concat_eq_append] at whole
        rw [whole] at found ⊢
        rw [dropLast_concat]
        rcases Entry.exists_dir_of_at?_concat found with ⟨entries, above⟩
        exact ⟨_, above⟩
    rcases there with ⟨entry, above⟩
    rw [statFrom_eq_ok.mpr ⟨_, equal, above⟩] at absent
    cases absent
  · rw [if_neg up]

theorem of_makeDirectory {files changed : Files} (made : files.makeDirectory path = .ok changed) :
    ∃ place, placeFrom files.root maxLinks [] path = .ok place ∧
      changed.workingDirectory = files.workingDirectory ∧
      Put files.root changed.root place (.dir []) := by
  rw [makeDirectory] at made
  cases absent : files.stat path with
  | ok entry =>
      rw [absent] at made
      cases made
  | error reason =>
      rw [absent] at made
      rcases eq_nil_or_concat path with empty | ⟨above, name, whole⟩
      · rw [empty, stat, statFrom, Entry.at?] at absent
        cases absent
      · rw [concat_eq_append] at whole
        subst whole
        rw [dropLast_concat] at made
        cases placed : placeFrom files.root maxLinks [] above with
        | error cause =>
            simp only [placed] at made
            cases made
        | ok directory =>
            cases there : files.root.at? directory with
            | none =>
                simp only [placed, there] at made
                cases made
            | some entry =>
                cases entry with
                | file content =>
                    simp only [placed, there] at made
                    cases made
                | link target =>
                    simp only [placed, there] at made
                    cases made
                | dir listing =>
                    simp only [placed, there, getLast?_concat, Option.toList_some] at made
                    cases free : files.root.at? (directory ++ [name]) with
                    | some entry =>
                        rw [free] at made
                        cases made
                    | none =>
                        rw [free] at made
                        cases made
                        refine ⟨directory ++ [name], placeFrom_of_absent placed there free absent,
                          rfl, .of_put ?_ rfl (.inl free) rfl⟩
                        intro front last cut
                        have equal : directory = front := (append_inj' cut rfl).1
                        exact ⟨listing, equal ▸ there⟩

end Files
end CodeQuality
