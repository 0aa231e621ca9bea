import CodeQuality.Files.Directory
import CodeQuality.Proofs.Files.Growth
import CodeQuality.Proofs.Text.Pieces

namespace CodeQuality

open List

namespace Files

/-!
Files that are written by the text of their path.

Whoever saves something makes the directories above the file first, and writes the
file then.  If both succeed, the text of the path leads to the new content.

Whether a file found later has been written by a saving is not a matter of what the
path leads to at first: a path that leads nowhere may come to lead to an old file when
directories are made.  `Reserved` excludes just this, for every way in which the tree
may grow.
-/

/-! ## The names in a text -/

theorem piecesFrom_append (mark : Char) (current front back : List Char) :
    piecesFrom mark current (front ++ mark :: back) =
      piecesFrom mark current front ++ piecesFrom mark [] back := by
  induction front generalizing current with
  | nil => simp [piecesFrom]
  | cons c rest ih =>
      rw [cons_append, piecesFrom, piecesFrom]
      split
      · rw [ih, cons_append]
      · exact ih _

theorem names_append (front back : List Char) :
    names (String.ofList (front ++ '/' :: back)) =
      names (String.ofList front) ++ names (String.ofList back) := by
  simp only [names, pieces, String.toList_ofList, piecesFrom_append, map_append,
    filter_append]

theorem names_slashes {slashes : List Char} (only : ∀ c ∈ slashes, c = '/') :
    names (String.ofList slashes) = [] := by
  induction slashes with
  | nil => decide
  | cons c rest ih =>
      have slash : c = '/' := only c mem_cons_self
      have further := ih fun other member => only other (mem_cons_of_mem c member)
      have cut := names_append [] rest
      rw [nil_append, further, append_nil] at cut
      rw [slash, cut]
      decide

/-- Slashes at the end of a text can be told from the rest of it. -/
theorem withoutSlashes_append (text : List Char) : ∃ slashes : List Char,
    (∀ c ∈ slashes, c = '/') ∧ text = withoutSlashes text ++ slashes ∧
      (text ≠ [] → withoutSlashes text ≠ []) := by
  by_cases only : text.all (· == '/') = true
  · have same : withoutSlashes text = text := by rw [withoutSlashes, if_pos only]
    exact ⟨[], by simp, by rw [same, append_nil], by rw [same]; exact id⟩
  · have cut : withoutSlashes text = (text.reverse.dropWhile (· == '/')).reverse := by
      rw [withoutSlashes, if_neg only]
    refine ⟨(text.reverse.takeWhile (· == '/')).reverse, ?_, ?_, ?_⟩
    · intro c member
      have taken := mem_takeWhile_imp (mem_reverse.mp member)
      exact beq_iff_eq.mp taken
    · rw [cut, ← reverse_append, takeWhile_append_dropWhile, reverse_reverse]
    · intro _ empty
      rw [cut, reverse_eq_nil_iff, dropWhile_eq_nil_iff] at empty
      apply only
      rw [all_eq_true]
      intro c member
      exact empty c (mem_reverse.mpr member)

theorem names_append_slashes {slashes : List Char} (only : ∀ c ∈ slashes, c = '/')
    (front : List Char) :
    names (String.ofList (front ++ slashes)) = names (String.ofList front) := by
  cases slashes with
  | nil => rw [append_nil]
  | cons c rest =>
      have slash : c = '/' := only c mem_cons_self
      have further : names (String.ofList rest) = [] :=
        names_slashes fun other member => only other (mem_cons_of_mem c member)
      rw [slash, names_append, further, append_nil]

theorem names_withoutSlashes (text : List Char) :
    names (String.ofList (withoutSlashes text)) = names (String.ofList text) := by
  rcases withoutSlashes_append text with ⟨slashes, only, whole, _⟩
  have equal := names_append_slashes only (withoutSlashes text)
  rw [← whole] at equal
  exact equal.symm

/-- A text is cut behind its last slash. -/
theorem splitText_eq (text : String) : ∃ directory name : List Char,
    text.toList = directory ++ name ∧ (directory = [] ∨ ∃ front, directory = front ++ ['/']) ∧
      '/' ∉ name ∧ splitText text = (String.ofList (withoutSlashes directory), String.ofList name) := by
  let reversed := text.toList.reverse
  refine ⟨(reversed.dropWhile (· ≠ '/')).reverse, (reversed.takeWhile (· ≠ '/')).reverse,
    ?_, ?_, ?_, rfl⟩
  · rw [← reverse_append, takeWhile_append_dropWhile, reverse_reverse]
  · cases cut : reversed.dropWhile (· ≠ '/') with
    | nil => exact .inl rfl
    | cons c rest =>
        have stops := head?_dropWhile_not (· ≠ '/') reversed
        rw [cut] at stops
        have slash : c = '/' := by simpa using stops
        exact .inr ⟨rest.reverse, by rw [slash, reverse_cons]⟩
  · intro member
    have taken := mem_takeWhile_imp (mem_reverse.mp member)
    exact absurd taken (by decide)

theorem names_splitText (text : String) :
    names text = names (splitText text).1 ++ names (splitText text).2 := by
  rcases splitText_eq text with ⟨directory, name, whole, shape, _, cut⟩
  have spelled : text = String.ofList (directory ++ name) := by
    rw [← whole, String.ofList_toList]
  rw [cut]
  simp only [names_withoutSlashes]
  rcases shape with rfl | ⟨front, rfl⟩
  · have nothing : names (String.ofList []) = [] := by decide
    rw [spelled, nil_append, nothing, nil_append]
  · have trailing : names (String.ofList (front ++ ['/'])) = names (String.ofList front) :=
      names_append_slashes (by simp) front
    rw [spelled, append_assoc, singleton_append, names_append, trailing]

variable {text : String}

theorem isAbsolute_splitText (present : (splitText text).1 ≠ "") :
    isAbsolute (splitText text).1 = isAbsolute text := by
  rcases splitText_eq text with ⟨directory, name, whole, _, _, cut⟩
  rw [cut] at present ⊢
  rcases withoutSlashes_append directory with ⟨slashes, _, stripped, _⟩
  have kept : withoutSlashes directory ≠ [] := by
    intro empty
    rw [empty] at present
    exact present rfl
  rw [isAbsolute, isAbsolute, String.toList_ofList, whole, stripped]
  rw [append_assoc, head?_append_of_ne_nil _ kept]
  rw [← stripped]

/-- The names of a path are those of its directory and its own name. -/
theorem fromRoot_splitText (files : Files) (present : (splitText text).1 ≠ "") :
    files.fromRoot text = files.fromRoot (splitText text).1 ++ names (splitText text).2 := by
  rw [fromRoot, fromRoot, isAbsolute_splitText present, names_splitText text]
  split
  · rfl
  · rw [append_assoc]

/-- A text that names a directory by its end has no name of its own. -/
theorem names_of_namesDirectory (ending : namesDirectory text = true) :
    names (splitText text).2 = [] := by
  rcases splitText_eq text with ⟨directory, name, whole, shape, clear, cut⟩
  rw [cut]
  have cutAt : ∀ front tail : List Char, '/' ∉ tail → text.toList = front ++ '/' :: tail →
      name = tail := by
    intro front tail tailClear equal
    rw [whole] at equal
    rcases shape with rfl | ⟨before, rfl⟩
    · rw [nil_append] at equal
      exact absurd (equal ▸ mem_append_right front mem_cons_self) clear
    · rw [append_assoc, singleton_append] at equal
      exact (Text.append_mark_inj clear tailClear equal).2
  simp only [namesDirectory, Bool.or_eq_true, endsWith, isSuffixOf_iff_suffix] at ending
  rcases ending with ⟨front, slash⟩ | ⟨front, dot⟩
  · have nothing : name = [] := cutAt front [] (by simp) slash.symm
    rw [nothing]
    show names (String.ofList []) = []
    decide
  · have point : name = ['.'] := cutAt front ['.'] (by decide) dot.symm
    rw [point]
    show names (String.ofList ['.']) = []
    decide

/-! ## Making directories -/

/-- One tree comes from another by making directories. -/
structure GainsDirectories (before after : Files) : Prop where
  extends_ : Extends before after
  file : ∀ place content, after.root.at? place = some (.file content) →
    before.root.at? place = some (.file content)

namespace GainsDirectories

theorem refl (files : Files) : GainsDirectories files files :=
  ⟨.refl files, fun _ _ found => found⟩

theorem trans {first second third : Files} (early : GainsDirectories first second)
    (late : GainsDirectories second third) : GainsDirectories first third :=
  ⟨early.extends_.trans late.extends_,
    fun place content found => early.file place content (late.file place content found)⟩

theorem of_makeDirectory {files changed : Files} {path : Path}
    (made : files.makeDirectory path = .ok changed) : GainsDirectories files changed := by
  rcases Files.of_makeDirectory made with ⟨place, _, same, put⟩
  refine ⟨.of_put same put, ?_⟩
  intro other content found
  have different : other ≠ place := by
    intro equal
    rw [equal, put.here] at found
    cases found
  exact (put.file_iff different content).mp found

/-- Files that were there hold what they held. -/
theorem file_of_file {before after : Files} (gains : GainsDirectories before after) {place : Path}
    {content : Content} (found : before.root.at? place = some (.file content)) :
    after.root.at? place = some (.file content) := by
  rcases gains.extends_.file place content found with ⟨changed, there⟩
  have equal := (gains.file place changed there).symm.trans found
  rw [there, Option.some.inj equal]

end GainsDirectories

variable {files changed : Files} {path : Path} {shown : String} {content : Content}

theorem stat_of_makeDirectory (made : files.makeDirectory path = .ok changed) :
    changed.isDir path = true := by
  rcases of_makeDirectory made with ⟨place, placed, same, put⟩
  have extends_ : Extends files changed := .of_put same put
  apply isDir_eq_true.mpr
  exact ⟨[], statFrom_eq_ok.mpr ⟨place, extends_.placeFrom_eq put.here placed, put.here⟩⟩

theorem gains_ensureDirectory (files : Files) (text : String) :
    GainsDirectories files (files.ensureDirectory text).2 := by
  rw [ensureDirectory]
  split
  · exact .refl files
  · split
    · next changed made => exact .of_makeDirectory made
    · split
      · exact .refl files
      · exact .refl files

theorem isDir_of_ensureDirectory (ensured : (files.ensureDirectory text).1 = .ok ()) :
    text ≠ "" ∧ (files.ensureDirectory text).2.isDir
      ((files.ensureDirectory text).2.fromRoot text) = true := by
  have working := (gains_ensureDirectory files text).extends_.fromRoot_eq text
  rw [working]
  rw [ensureDirectory] at ensured ⊢
  by_cases empty : text = ""
  · rw [if_pos empty] at ensured
    cases ensured
  · rw [if_neg empty] at ensured ⊢
    refine ⟨empty, ?_⟩
    cases made : files.makeDirectory (files.fromRoot text) with
    | ok changed => exact stat_of_makeDirectory made
    | error cause =>
        simp only [made] at ensured ⊢
        by_cases there : files.isDir (files.fromRoot text) = true
        · rw [if_pos there]
          exact there
        · rw [if_neg there] at ensured
          cases ensured

/-- The head and the tail that a text is split into when the directories above are made: a slash
at its end does not count. -/
def splitForMaking (text : String) : String × String :=
  if (splitText text).2 = "" then splitText (splitText text).1 else splitText text

theorem ensureDirectoriesWithin_succ (bound : Nat) (files : Files) (text : String) :
    ensureDirectoriesWithin (bound + 1) files text =
      if (splitForMaking text).1 ≠ "" && (splitForMaking text).2 ≠ "" &&
          !files.holdsText (splitForMaking text).1 then
        match ensureDirectoriesWithin bound files (splitForMaking text).1 with
        | (.error (.file .present _), changed) => ensureDirectory changed text
        | (.error fault, changed) => (.error fault, changed)
        | (.ok (), changed) =>
            if (splitForMaking text).2 = "." then (.ok (), changed)
            else ensureDirectory changed text
      else ensureDirectory files text := by
  rw [ensureDirectoriesWithin]
  unfold splitForMaking
  rcases splitText text with ⟨directory, name⟩
  rfl

theorem fromRoot_splitForMaking (files : Files) (present : (splitForMaking text).1 ≠ "") :
    files.fromRoot text =
      files.fromRoot (splitForMaking text).1 ++ names (splitForMaking text).2 := by
  rw [splitForMaking] at present ⊢
  by_cases ending : (splitText text).2 = ""
  · rw [if_pos ending] at present ⊢
    have above : (splitText text).1 ≠ "" := by
      intro empty
      rw [empty] at present
      exact present (by decide)
    have nothing : names "" = [] := by decide
    rw [files.fromRoot_splitText above, ending, nothing, append_nil]
    exact files.fromRoot_splitText present
  · rw [if_neg ending] at present ⊢
    exact files.fromRoot_splitText present

/-- Making directories changes nothing else, also when it fails on the way. -/
theorem gains_ensureDirectoriesWithin (bound : Nat) (files : Files) (text : String) :
    GainsDirectories files (ensureDirectoriesWithin bound files text).2 := by
  induction bound generalizing text with
  | zero => exact gains_ensureDirectory files text
  | succ bound ih =>
      rw [ensureDirectoriesWithin_succ]
      split
      · have above := ih (splitForMaking text).1
        split
        · next path changed ensured =>
            rw [ensured] at above
            exact above.trans (gains_ensureDirectory changed text)
        · next fault changed _ ensured =>
            rw [ensured] at above
            exact above
        · next changed ensured =>
            rw [ensured] at above
            split
            · exact above
            · exact above.trans (gains_ensureDirectory changed text)
      · exact gains_ensureDirectory files text

theorem isDir_of_ensureDirectoriesWithin {bound : Nat}
    (ensured : (ensureDirectoriesWithin bound files text).1 = .ok ()) :
    text ≠ "" ∧ (ensureDirectoriesWithin bound files text).2.isDir
      ((ensureDirectoriesWithin bound files text).2.fromRoot text) = true := by
  induction bound generalizing text with
  | zero => exact isDir_of_ensureDirectory ensured
  | succ bound ih =>
      rw [ensureDirectoriesWithin_succ] at ensured ⊢
      split at ensured
      · next deeper =>
          rw [if_pos deeper]
          simp only [ne_eq, Bool.and_eq_true, decide_eq_true_eq] at deeper
          cases above : ensureDirectoriesWithin bound files (splitForMaking text).1 with
          | mk outcome changed =>
              rw [above] at ensured
              cases outcome with
              | error fault =>
                  split at ensured
                  · next equal =>
                      cases equal
                      exact isDir_of_ensureDirectory ensured
                  · cases ensured
                  · next equal => cases equal
              | ok done =>
                  simp only at ensured ⊢
                  split at ensured
                  · next dot =>
                      rw [if_pos dot]
                      have there := @ih (splitForMaking text).1 (by rw [above])
                      rw [above] at there
                      refine ⟨?_, ?_⟩
                      · intro empty
                        rw [empty] at deeper
                        exact deeper.1.1 (by decide)
                      · have nothing : names "." = [] := by decide
                        rw [changed.fromRoot_splitForMaking deeper.1.1, dot, nothing,
                          append_nil]
                        exact there.2
                  · next further =>
                      rw [if_neg further]
                      exact isDir_of_ensureDirectory ensured
      · next shallow =>
          rw [if_neg shallow]
          exact isDir_of_ensureDirectory ensured

theorem gains_of_ensureDirectories {prepared : Files} {outcome : Outcome Unit}
    (ensured : files.ensureDirectories text = (outcome, prepared)) :
    GainsDirectories files prepared := by
  have gains := gains_ensureDirectoriesWithin text.length files text
  rw [ensureDirectories] at ensured
  rw [ensured] at gains
  exact gains

/-! ## Saving -/

/-- A text leads to a file exactly when its path does and the text does not name a directory. -/
theorem statText_eq_file :
    files.statText text = .ok (.file content) ↔
      text ≠ "" ∧ namesDirectory text = false ∧
        files.stat (files.fromRoot text) = .ok (.file content) := by
  rw [statText]
  by_cases empty : text = ""
  · simp [empty]
  · rw [if_neg empty]
    rcases files.stat (files.fromRoot text) with cause | entry
    · simp
    · cases entry with
      | dir listing => simp
      | link target => by_cases ending : namesDirectory text = true <;> simp [ending]
      | file held => by_cases ending : namesDirectory text = true <;> simp [ending, empty]

theorem statText_of_holdsText (there : files.holdsText text = true)
    (found : files.stat (files.fromRoot text) = .ok (.file content)) :
    files.statText text = .ok (.file content) := by
  rw [holdsText, statText] at there
  rw [statText]
  by_cases empty : text = ""
  · rw [if_pos empty] at there
    cases there
  · rw [if_neg empty] at there ⊢
    rw [found] at there ⊢
    by_cases ending : namesDirectory text = true
    · simp only [ending, if_true] at there
      cases there
    · simp only [ending, if_false, Bool.false_eq_true]

theorem stat_of_write (written : files.write path shown content = .ok changed) :
    changed.stat path = .ok (.file content) := by
  rcases of_write written with ⟨place, placed, same, put⟩
  have extends_ : Extends files changed := .of_put same put
  exact statFrom_eq_ok.mpr ⟨place, extends_.placeFrom_eq put.here placed, put.here⟩

/-- Another path may lead to the file that is written. -/
theorem stat_of_write_other {other : Path} {old : Content}
    (written : files.write path shown content = .ok changed)
    (found : files.stat other = .ok (.file old)) :
    changed.stat other = .ok (.file old) ∨ changed.stat other = .ok (.file content) := by
  rcases of_write written with ⟨place, _, same, put⟩
  have extends_ : Extends files changed := .of_put same put
  rcases statFrom_eq_ok.mp found with ⟨home, placed, held⟩
  by_cases equal : home = place
  · rw [equal] at placed
    exact .inr (statFrom_eq_ok.mpr
      ⟨place, extends_.placeFrom_eq put.here placed, put.here⟩)
  · have kept := (put.file_iff equal old).mpr held
    exact .inl (statFrom_eq_ok.mpr ⟨home, extends_.placeFrom_eq kept placed, kept⟩)

theorem GainsDirectories.stat_file {before after : Files} (gains : GainsDirectories before after)
    (found : before.stat path = .ok (.file content)) : after.stat path = .ok (.file content) := by
  rcases statFrom_eq_ok.mp found with ⟨place, placed, held⟩
  have kept := gains.file_of_file held
  exact statFrom_eq_ok.mpr ⟨place, gains.extends_.placeFrom_eq kept placed, kept⟩

theorem GainsDirectories.statText_file {before after : Files}
    (gains : GainsDirectories before after) (found : before.statText text = .ok (.file content)) :
    after.statText text = .ok (.file content) := by
  rcases statText_eq_file.mp found with ⟨present, plain, held⟩
  rw [← gains.extends_.fromRoot_eq] at held
  exact statText_eq_file.mpr ⟨present, plain, gains.stat_file held⟩

theorem write_fromRoot (written : files.write path shown content = .ok changed) (text : String) :
    changed.fromRoot text = files.fromRoot text := by
  rcases of_write written with ⟨_, _, same, put⟩
  exact (Extends.of_put same put).fromRoot_eq text

/-- Once the directories above a file have been made and the file has been written, its text leads
to what has been written. -/
theorem statText_of_saved {prepared : Files}
    (ensured : files.ensureDirectories (directoryText text) = (.ok (), prepared))
    (written : prepared.write (prepared.fromRoot text) text content = .ok changed) :
    changed.statText text = .ok (.file content) := by
  have above := isDir_of_ensureDirectoriesWithin
    (show (ensureDirectoriesWithin (directoryText text).length files (directoryText text)).1 = .ok ()
      from congrArg Prod.fst ensured)
  rw [show ensureDirectoriesWithin (directoryText text).length files (directoryText text) =
    (.ok (), prepared) from ensured] at above
  refine statText_eq_file.mpr ⟨?_, ?_, ?_⟩
  · intro empty
    rw [empty] at above
    exact above.1 (by decide)
  · -- Otherwise the path is that of its directory, which is no file.
    by_contra ending
    rw [Bool.not_eq_false] at ending
    have path := prepared.fromRoot_splitText above.1
    rw [names_of_namesDirectory ending, append_nil] at path
    rcases isDir_eq_true.mp above.2 with ⟨listing, directory⟩
    rw [show prepared.fromRoot (directoryText text) = prepared.fromRoot text from path.symm]
      at directory
    rcases of_write written with ⟨place, placed, _, put⟩
    rcases statFrom_eq_ok.mp directory with ⟨other, placedThere, isThere⟩
    cases placed.symm.trans placedThere
    rcases put.vacant with absent | ⟨⟨old, file⟩, _⟩
    · rw [absent] at isThere
      cases isThere
    · rw [file] at isThere
      cases isThere
  · rw [write_fromRoot written]
    exact stat_of_write written

/-! ## Files that only savings write -/

/-- The path of a text leads to no file of a tree, and it does not come to lead to one when the tree
grows. -/
def Reserved (files : Files) (text : String) : Prop :=
  ∀ later, Extends files later → ∀ place,
    placeFrom later.root maxLinks [] (later.fromRoot text) = .ok place →
    ∀ content, files.root.at? place ≠ some (.file content)

/-- Since an earlier tree, only content of some kind has been written. -/
structure WrittenSince (kind : Content → Prop) (first now : Files) : Prop where
  extends_ : Extends first now
  content : ∀ place content, now.root.at? place = some (.file content) →
    kind content ∨ ∃ old, first.root.at? place = some (.file old)

namespace WrittenSince

variable {kind : Content → Prop} {first now after : Files}

theorem refl (files : Files) : WrittenSince kind files files :=
  ⟨.refl files, fun _ content found => .inr ⟨content, found⟩⟩

theorem gains (since : WrittenSince kind first now) (gained : GainsDirectories now after) :
    WrittenSince kind first after :=
  ⟨since.extends_.trans gained.extends_,
    fun place content found => since.content place content (gained.file place content found)⟩

theorem write (since : WrittenSince kind first now) (fitting : kind content)
    (written : now.write path shown content = .ok after) : WrittenSince kind first after := by
  rcases of_write written with ⟨place, _, same, put⟩
  refine ⟨since.extends_.trans (.of_put same put), ?_⟩
  intro other found there
  by_cases equal : other = place
  · rw [equal, put.here] at there
    cases there
    exact .inl fitting
  · exact since.content other found ((put.file_iff equal found).mp there)

/-- What a reserved path leads to has been written since. -/
theorem of_stat (since : WrittenSince kind first now) (reserved : first.Reserved text)
    (found : now.stat (now.fromRoot text) = .ok (.file content)) : kind content := by
  rcases statFrom_eq_ok.mp found with ⟨place, placed, there⟩
  rcases since.content place content there with fitting | ⟨old, file⟩
  · exact fitting
  · exact absurd file (reserved now since.extends_ place placed old)

end WrittenSince

end Files
end CodeQuality
