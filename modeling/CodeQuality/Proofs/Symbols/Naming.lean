import CodeQuality.Proofs.Analysis.Latest
import CodeQuality.Proofs.Files.Names
import CodeQuality.Symbols.Table
import Mathlib.Data.List.DropRight

namespace CodeQuality

open Files List

namespace Symbols

/-!
The names that modules get.

The plain name of a file is the text of its path with dots for slashes and without the
ending.  Within a directory it tells the files apart.  A module does not always get the
plain name, since every letter at the end of it that is also a letter of the ending goes
too.  Files whose plain names differ in such letters only are then one module, and
the file that comes last is the one that the table tells of.

So a table is faithful to the plain names under a condition on these names, and it is
faithful only then.
-/

/-- The text of a path with dots for slashes. -/
def dottedText (path : Path) : List Char :=
  (relativeText path).toList.map fun c => if c = '/' then '.' else c

/-- The plain name of a file: its path with dots for slashes, without the ending. -/
def plainName (ending : String) (path : Path) : String :=
  String.ofList ((dottedText path).rdrop ending.toList.length)

/-- Whether the last character of a text is one of some letters. -/
def endsAmong (letters text : List Char) : Bool := text.getLast?.any letters.contains

/-- A path whose last name has an ending and is without slashes. -/
def HasEnding (ending : String) (path : Path) : Prop :=
  ∃ folder name, path = folder ++ [name] ∧ endsWith ending name = true ∧
    isWhole name = true

/-- What a table tells of files: of each module once, and of the last file that has its name.  The
name is the plain one without the letters of the ending that stand at its end. -/
structure Tells (ending : String) (read : Path → ModuleEntry) (paths : List Path)
    (table : Table) : Prop where
  distinct : (table.map Prod.fst).Nodup
  mem_iff : ∀ name entry, (name, entry) ∈ table ↔
    ∃ path, Analysis.IsLatest (moduleName ending) paths path ∧
      moduleName ending path = name ∧ read path = entry
  trimmed : ∀ path ∈ paths, endsAmong ending.toList (moduleName ending path).toList = false ∧
    ∃ lost, plainName ending path = moduleName ending path ++ lost ∧
      ∀ c ∈ lost.toList, c ∈ ending.toList

/-- A table is faithful to the names of files: it tells of every file under its plain name, and
the files of a directory are different modules. -/
structure Faithful (ending : String) (read : Path → ModuleEntry) (paths : List Path)
    (table : Table) : Prop where
  named : ∀ path ∈ paths, (plainName ending path, read path) ∈ table
  apart : ∀ folder first second, folder ++ [first] ∈ paths → folder ++ [second] ∈ paths →
    first ≠ second →
      moduleName ending (folder ++ [first]) ≠ moduleName ending (folder ++ [second])

/-- The plain names of files can serve as names of modules: none of them ends in a letter of the
ending, and files that share one have the same content. -/
structure NamesSuffice (ending : String) (read : Path → ModuleEntry)
    (paths : List Path) : Prop where
  kept : ∀ path ∈ paths, endsAmong ending.toList (plainName ending path).toList = false
  agree : ∀ first ∈ paths, ∀ second ∈ paths,
    plainName ending first = plainName ending second → read first = read second

/-! ## Names -/

/-- Nothing is trimmed from a text exactly when it does not end in one of the letters. -/
theorem rdropWhile_eq_self_iff_endsAmong (letters text : List Char) :
    text.rdropWhile letters.contains = text ↔ endsAmong letters text = false := by
  rw [rdropWhile_eq_self_iff]
  rcases eq_nil_or_concat text with empty | ⟨front, last, ends⟩
  · subst empty
    exact ⟨fun _ => rfl, fun _ nonempty => absurd rfl nonempty⟩
  · subst ends
    simp [endsAmong, concat_eq_append]

/-- The text of a path ends in its last name, and what stands before that does not depend on it. -/
theorem exists_dottedText (folder : Path) :
    ∃ front : List Char, ∀ name, isWhole name = true →
      dottedText (folder ++ [name]) = front ++ name.toList := by
  have unchanged : ∀ name, isWhole name = true →
      (name.toList.map fun c => if c = '/' then '.' else c) = name.toList := by
    intro name whole
    refine (map_congr_left ?_).trans (map_id _)
    intro c member
    refine if_neg ?_
    rintro rfl
    exact notMem_of_isWhole whole member
  by_cases top : folder = []
  · refine ⟨[], ?_⟩
    intro name whole
    simp [dottedText, relativeText, top, unchanged name whole]
  · refine ⟨dottedText folder ++ ['.'], ?_⟩
    intro name whole
    rw [dottedText, relativeText,
      String.intercalate_append_of_ne_nil top (cons_ne_nil name [])]
    simp [dottedText, relativeText, String.toList_append, unchanged name whole]

variable {ending : String} {path : Path}

/-- With its ending, the plain name of a file is the text of its path. -/
theorem dottedText_eq (named : HasEnding ending path) :
    dottedText path = (plainName ending path).toList ++ ending.toList := by
  rcases named with ⟨folder, name, rfl, ended, whole⟩
  rcases exists_dottedText folder with ⟨front, spelled⟩
  rcases isSuffixOf_iff_suffix.mp ended with ⟨stem, cut⟩
  rw [plainName, spelled name whole, ← cut, ← append_assoc, String.toList_ofList, rdrop,
    length_append, Nat.add_sub_cancel, take_left]

/-- The name of a module is the plain name of its file without the letters of the ending that stand
at its end. -/
theorem toList_moduleName (named : HasEnding ending path) :
    (moduleName ending path).toList =
      (plainName ending path).toList.rdropWhile ending.toList.contains := by
  have spelled : (moduleName ending path).toList =
      ((dottedText path).reverse.dropWhile ending.toList.contains).reverse :=
    String.toList_ofList
  rw [spelled, dottedText_eq named, reverse_append, dropWhile_append_of_pos]
  · rfl
  · intro c member
    exact contains_iff_mem.mpr (mem_reverse.mp member)

theorem endsAmong_moduleName (named : HasEnding ending path) :
    endsAmong ending.toList (moduleName ending path).toList = false := by
  rw [toList_moduleName named, ← rdropWhile_eq_self_iff_endsAmong]
  exact rdropWhile_idempotent _ _

theorem moduleName_eq_plainName_iff (named : HasEnding ending path) :
    moduleName ending path = plainName ending path ↔
      endsAmong ending.toList (plainName ending path).toList = false := by
  rw [← String.toList_inj, toList_moduleName named, rdropWhile_eq_self_iff_endsAmong]

/-- What a module name lacks of the plain name are letters of the ending. -/
theorem exists_lost (named : HasEnding ending path) :
    ∃ lost, plainName ending path = moduleName ending path ++ lost ∧
      ∀ c ∈ lost.toList, c ∈ ending.toList := by
  refine ⟨String.ofList ((plainName ending path).toList.rtakeWhile ending.toList.contains), ?_, ?_⟩
  · rw [← String.toList_inj, String.toList_append, toList_moduleName named, String.toList_ofList,
      rdropWhile_append_rtakeWhile]
  · intro c member
    rw [String.toList_ofList] at member
    exact contains_iff_mem.mp (mem_rtakeWhile_imp member)

/-- Files of a directory have different plain names. -/
theorem eq_of_plainName {folder : Path} {first second : String}
    (firstNamed : HasEnding ending (folder ++ [first]))
    (secondNamed : HasEnding ending (folder ++ [second]))
    (same : plainName ending (folder ++ [first]) = plainName ending (folder ++ [second])) :
    first = second := by
  have texts : dottedText (folder ++ [first]) = dottedText (folder ++ [second]) := by
    rw [dottedText_eq firstNamed, dottedText_eq secondNamed, same]
  have whole : ∀ {name}, HasEnding ending (folder ++ [name]) → isWhole name = true := by
    rintro name ⟨above, own, cut, _, whole⟩
    rw [(cons.inj (append_inj' cut rfl).2).1]
    exact whole
  rcases exists_dottedText folder with ⟨front, spelled⟩
  rw [spelled first (whole firstNamed), spelled second (whole secondNamed)] at texts
  exact String.toList_inj.mp (append_cancel_left texts)

/-! ## Tables -/

theorem putEntry_eq (name : String) (entry : ModuleEntry) (table : Table) :
    putEntry name entry table = Analysis.put Prod.fst (name, entry) table := by
  induction table with
  | nil => rfl
  | cons own rest ih =>
      rw [putEntry, Analysis.put, ih]
      by_cases same : own.1 = name
      · rw [if_pos same, if_pos same, same]
      · rw [if_neg same, if_neg same]

theorem tableOf_eq (ending : String) (read : Path → ModuleEntry)
    (paths : List Path) : tableOf ending read paths =
      (paths.map fun path => (moduleName ending path, read path)).foldl
        (fun kept added => Analysis.put Prod.fst added kept) [] := by
  rw [tableOf, foldl_map]
  simp only [putEntry_eq]

theorem tells_tableOf (read : Path → ModuleEntry) {paths : List Path}
    (named : ∀ path ∈ paths, HasEnding ending path) :
    Tells ending read paths (tableOf ending read paths) where
  distinct := by
    rw [tableOf_eq]
    exact Analysis.nodup_map_key_foldl_put Prod.fst _ [] nodup_nil
  mem_iff := by
    intro name entry
    rw [tableOf_eq, Analysis.mem_foldl_put, Analysis.isLatest_map]
    simp only [Prod.mk.injEq]
  trimmed := fun path member =>
    ⟨endsAmong_moduleName (named path member), exists_lost (named path member)⟩

/-- A table is faithful to the names of files exactly when these can serve as names of modules. -/
theorem Tells.faithful_iff {read : Path → ModuleEntry} {paths : List Path} {table : Table}
    (tells : Tells ending read paths table) (named : ∀ path ∈ paths, HasEnding ending path) :
    Faithful ending read paths table ↔ NamesSuffice ending read paths := by
  constructor
  · intro faithful
    constructor
    · intro path member
      -- The plain name is the name of some module, and no module name ends in such a letter.
      rcases (tells.mem_iff _ _).mp (faithful.named path member) with ⟨other, latest, same, _⟩
      exact same ▸ (tells.trimmed other latest.mem).1
    · intro first firstMember second secondMember same
      have firstTold := faithful.named first firstMember
      have secondTold := faithful.named second secondMember
      rw [← same] at secondTold
      exact congrArg Prod.snd (inj_on_of_nodup_map tells.distinct firstTold secondTold rfl)
  · intro suffice
    have plain : ∀ path ∈ paths, moduleName ending path = plainName ending path :=
      fun path member => (moduleName_eq_plainName_iff (named path member)).mpr
        (suffice.kept path member)
    constructor
    · intro path member
      rcases Analysis.exists_isLatest (moduleName ending) member with ⟨latest, isLatest, same⟩
      have shared : plainName ending latest = plainName ending path := by
        rw [← plain latest isLatest.mem, same, plain path member]
      exact (tells.mem_iff _ _).mpr ⟨latest, isLatest, same.trans (plain path member),
        suffice.agree latest isLatest.mem path member shared⟩
    · intro folder first second firstMember secondMember different same
      rw [plain _ firstMember, plain _ secondMember] at same
      exact different (eq_of_plainName (named _ firstMember) (named _ secondMember) same)

/-! ## Files with an ending -/

mutual

/-- What is found below an entry has the ending. -/
theorem hasEnding_of_mem_entryMatching (ending : String) (here : Path) :
    ∀ entry : Entry, entry.hasWholeNames = true → ∀ path ∈ entry.matching ending here,
      HasEnding ending path
  | .dir entries, whole, path, member => by
      rw [Entry.matching] at member
      rw [Entry.hasWholeNames] at whole
      rcases mem_append.mp member with own | below
      · rcases mem_map.mp own with ⟨name, listed, rfl⟩
        rcases mem_filter.mp listed with ⟨present, ended⟩
        rcases mem_map.mp present with ⟨pair, inside, rfl⟩
        exact ⟨here, pair.1, rfl, ended, (isWhole_of_mem whole inside).1⟩
      · exact hasEnding_of_mem_matchingBelow ending here entries whole path below
  | .file _, _, path, member => by
      rw [Entry.matching] at member
      cases member
  | .link _, _, path, member => by
      rw [Entry.matching] at member
      cases member

theorem hasEnding_of_mem_matchingBelow (ending : String) (here : Path) :
    ∀ entries : List (String × Entry), wholeBelow entries = true →
      ∀ path ∈ matchingBelow ending here entries, HasEnding ending path
  | [], _, path, member => by
      rw [matchingBelow] at member
      cases member
  | (name, entry) :: rest, whole, path, member => by
      rw [matchingBelow] at member
      rw [wholeBelow, Bool.and_eq_true, Bool.and_eq_true] at whole
      rcases mem_append.mp member with own | others
      · exact hasEnding_of_mem_entryMatching ending (here ++ [name]) entry whole.1.2 path own
      · exact hasEnding_of_mem_matchingBelow ending here rest whole.2 path others

end

theorem hasEnding_of_mem_matching {files : Files} (whole : files.root.hasWholeNames = true)
    {start : Path} (member : path ∈ files.matching ending start) : HasEnding ending path := by
  rw [matching] at member
  cases found : files.stat start with
  | error cause =>
      rw [found] at member
      cases member
  | ok entry =>
      rw [found] at member
      cases entry with
      | file content => cases member
      | link target => cases member
      | dir entries =>
          exact hasEnding_of_mem_entryMatching ending [] (.dir entries)
            (hasWholeNames_of_stat whole found) path member

/-- Both symbol tables of a repository can be made.  They tell of the last file of each name, and
they are faithful to the plain names exactly when no plain name ends in a letter of the ending and
files with a plain name in common have the same content. -/
theorem tables_faithful_iff_names_suffice {files : Files} {path : String} {root : Path}
    (whole : files.root.hasWholeNames = true) (resolved : files.resolve path = .ok root) :
    (∀ reader, ∃ table, pythonTable reader files path = .ok table ∧
      Tells ".py" (fun file => pythonEntry reader files (root ++ file))
        (files.matching ".py" root) table ∧
      (Faithful ".py" (fun file => pythonEntry reader files (root ++ file))
          (files.matching ".py" root) table ↔
        NamesSuffice ".py" (fun file => pythonEntry reader files (root ++ file))
          (files.matching ".py" root))) ∧
    ∀ hasGrammar, ∃ table, scriptTable hasGrammar files path = .ok table ∧
      Tells ".js" (fun file => scriptEntry hasGrammar files (root ++ file))
        (files.matching ".js" root) table ∧
      (Faithful ".js" (fun file => scriptEntry hasGrammar files (root ++ file))
          (files.matching ".js" root) table ↔
        NamesSuffice ".js" (fun file => scriptEntry hasGrammar files (root ++ file))
          (files.matching ".js" root)) := by
  have named : ∀ ending, ∀ file ∈ files.matching ending root, HasEnding ending file :=
    fun ending file member => hasEnding_of_mem_matching whole member
  constructor
  · intro reader
    have tells := tells_tableOf (fun file => pythonEntry reader files (root ++ file)) (named ".py")
    refine ⟨_, ?_, tells, tells.faithful_iff (named ".py")⟩
    rw [pythonTable, resolved]
    rfl
  · intro hasGrammar
    have tells := tells_tableOf (fun file => scriptEntry hasGrammar files (root ++ file))
      (named ".js")
    refine ⟨_, ?_, tells, tells.faithful_iff (named ".js")⟩
    rw [scriptTable, resolved]
    rfl

/-- Plain names that are all different suffice when they end well. -/
theorem NamesSuffice.of_distinct {read : Path → ModuleEntry} {paths : List Path}
    (kept : ∀ path ∈ paths, endsAmong ending.toList (plainName ending path).toList = false)
    (distinct : (paths.map (plainName ending)).Nodup) : NamesSuffice ending read paths where
  kept := kept
  agree := fun _ firstMember _ secondMember same =>
    congrArg read (inj_on_of_nodup_map distinct firstMember secondMember same)

def apartFiles : Files :=
  ⟨.dir [("lib", .dir [("index.js", .file (.bytes [])), ("io.py", .file (.bytes []))]),
    ("main.py", .file (.bytes [])), ("page.js", .file (.bytes []))], []⟩

/-- Files in two directories whose plain names suffice. -/
theorem apartFiles_faithful :
    (∃ table, pythonTable .plain apartFiles "/" = .ok table ∧
      Faithful ".py" (pythonEntry .plain apartFiles) [["main.py"], ["lib", "io.py"]] table) ∧
    ∃ table, scriptTable false apartFiles "/" = .ok table ∧
      Faithful ".js" (scriptEntry false apartFiles) [["page.js"], ["lib", "index.js"]] table := by
  have modules : apartFiles.matching ".py" [] = [["main.py"], ["lib", "io.py"]] := by
    rw [matching, stat_nil]
    decide +kernel
  have scripts : apartFiles.matching ".js" [] = [["page.js"], ["lib", "index.js"]] := by
    rw [matching, stat_nil]
    decide +kernel
  have tables := tables_faithful_iff_names_suffice (by decide) (resolve_slash apartFiles)
  rw [modules, scripts] at tables
  rcases tables.1 .plain with ⟨modulesTable, modulesMade, _, modulesFaithful⟩
  rcases tables.2 false with ⟨scriptsTable, scriptsMade, _, scriptsFaithful⟩
  refine ⟨⟨modulesTable, modulesMade, modulesFaithful.mpr ?_⟩,
    ⟨scriptsTable, scriptsMade, scriptsFaithful.mpr ?_⟩⟩
  · exact .of_distinct (by decide +kernel) (by decide +kernel)
  · exact .of_distinct (by decide +kernel) (by decide +kernel)

def mergedFiles : Files :=
  ⟨.dir [("cop.py", .file (.bytes [])), ("copy.py", .file (.bytes []))], []⟩

/-- Two files of a directory are one module, and it has the plain name of neither. -/
theorem mergedFiles_unfaithful :
    ∃ table, pythonTable .plain mergedFiles "/" = .ok table ∧ table.map Prod.fst = ["co"] ∧
      ¬ Faithful ".py" (pythonEntry .plain mergedFiles) (mergedFiles.matching ".py" []) table := by
  have listed : mergedFiles.matching ".py" [] = [["cop.py"], ["copy.py"]] := by
    rw [matching, stat_nil]
    decide +kernel
  have first : moduleName ".py" ["cop.py"] = "co" := by decide +kernel
  have second : moduleName ".py" ["copy.py"] = "co" := by decide +kernel
  refine ⟨tableOf ".py" (pythonEntry .plain mergedFiles) (mergedFiles.matching ".py" []), ?_, ?_,
    ?_⟩
  · rw [pythonTable, resolve_slash]
    rfl
  · rw [listed]
    simp [tableOf, putEntry, first, second]
  · intro faithful
    rw [listed] at faithful
    exact faithful.apart [] "cop.py" "copy.py" (by decide) (by decide) (by decide)
      (first.trans second.symm)

end Symbols
end CodeQuality
