import CodeQuality.Proofs.Survey.Duplication

namespace CodeQuality
namespace Survey
namespace Script

open CodeQuality.Script Files List

/-!
How many files a duplicate is said to stand in.

The message for a duplicate speaks of files, and what it counts are occurrences.  The two
numbers agree as long as no script repeats a function of its own.  When one does, its name
is listed once for each occurrence, and the number is too large.
-/

/-- A script and the functions that are read from it. -/
structure ReadScript where
  file : String
  functions : List Function
deriving DecidableEq

/-- The digests of the functions of a script, in order. -/
def ReadScript.digests (script : ReadScript) : List String := script.functions.filterMap bodyDigest?

/-- The scripts below a directory in the order of the walk. -/
def readScripts (grammar : Grammar) (files : Files) (root : Path) : List ReadScript :=
  (sourcePaths files root).mapIdx fun position path =>
    ⟨relativeText path,
      (reading (files.readLenient (root ++ path)) (grammar.tree? position)).1⟩

/-- The files that have a function with a digest. -/
def holders (scripts : List ReadScript) (digest : String) : List String :=
  (scripts.filter fun script => digest ∈ script.digests).map ReadScript.file

/-- The occurrences of digests in scripts. -/
def occurrences (scripts : List ReadScript) : List Occurrence :=
  scripts.flatMap fun script => script.digests.map fun digest => ⟨digest, script.file⟩

/-- A finding says in how many files a function stands, and which ones these are. -/
structure CountsFiles (scripts : List ReadScript) (digest : String) (finding : Finding) : Prop where
  number : finding.message = "Code duplication detected across " ++
    toString (holders scripts digest).length ++ " files."
  evidence : finding.details.map Details.evidence =
    some (Json.texts (holders scripts digest)).render

/-! ## Places and holders -/

section

variable {scripts : List ReadScript} {digest : String}

theorem holders_cons (script : ReadScript) (rest : List ReadScript) (digest : String) :
    holders (script :: rest) digest =
      (if digest ∈ script.digests then [script.file] else []) ++ holders rest digest := by
  by_cases inside : digest ∈ script.digests
  · simp [holders, inside]
  · simp [holders, inside]

theorem placesOf_cons (script : ReadScript) (rest : List ReadScript) (digest : String) :
    placesOf (occurrences (script :: rest)) digest =
      replicate (script.digests.count digest) script.file ++
        placesOf (occurrences rest) digest := by
  have own : placesOf (script.digests.map fun own => ⟨own, script.file⟩) digest =
      replicate (script.digests.count digest) script.file := by
    rw [placesOf, filter_map, map_map, count_eq_length_filter, ← map_const']
    rfl
  rw [← own, occurrences, flatMap_cons, placesOf, filter_append, map_append]
  rfl

/-- Without repetitions inside of a script, the occurrences are the files. -/
theorem placesOf_eq_holders (once : ∀ script ∈ scripts, script.digests.count digest ≤ 1) :
    placesOf (occurrences scripts) digest = holders scripts digest := by
  induction scripts with
  | nil => rfl
  | cons script rest ih =>
      rw [forall_mem_cons] at once
      rw [placesOf_cons, holders_cons, ih once.2]
      congr 1
      by_cases inside : digest ∈ script.digests
      · have single : script.digests.count digest = 1 :=
          Nat.le_antisymm once.1 (count_pos_iff.mpr inside)
        rw [if_pos inside, single, replicate_one]
      · rw [if_neg inside, count_eq_zero.mpr inside, replicate_zero]

theorem length_holders_le (scripts : List ReadScript) (digest : String) :
    (holders scripts digest).length ≤ (placesOf (occurrences scripts) digest).length := by
  induction scripts with
  | nil => exact Nat.le_refl 0
  | cons script rest ih =>
      rw [placesOf_cons, holders_cons, length_append, length_append,
        length_replicate]
      apply Nat.add_le_add _ ih
      by_cases inside : digest ∈ script.digests
      · rw [if_pos inside]
        exact count_pos_iff.mpr inside
      · rw [if_neg inside]
        exact Nat.zero_le _

/-- There are as many occurrences as files only if no script has the digest twice. -/
theorem once_of_length_eq
    (same : (placesOf (occurrences scripts) digest).length = (holders scripts digest).length) :
    ∀ script ∈ scripts, script.digests.count digest ≤ 1 := by
  induction scripts with
  | nil => exact forall_mem_nil _
  | cons script rest ih =>
      rw [placesOf_cons, holders_cons, length_append, length_append,
        length_replicate] at same
      have below := length_holders_le rest digest
      rw [forall_mem_cons]
      by_cases inside : digest ∈ script.digests
      · have present := count_pos_iff.mpr inside
        rw [if_pos inside, length_singleton] at same
        exact ⟨by omega, ih (by omega)⟩
      · have absent := count_eq_zero.mpr inside
        rw [if_neg inside, length_nil] at same
        exact ⟨by omega, ih (by omega)⟩

/-- A digest that occurs twice in one script is among the repeated ones. -/
theorem mem_repeatedIn_of_mem {script : ReadScript} (member : script ∈ scripts)
    (several : 2 ≤ script.digests.count digest) : digest ∈ repeatedIn (occurrences scripts) := by
  have inside : script.digests.Sublist ((occurrences scripts).map Occurrence.digest) := by
    rw [occurrences, map_flatMap]
    simp only [map_map, Function.comp_def, map_id']
    exact sublist_flatten_of_mem (mem_map_of_mem member)
  exact mem_repeatedIn.mpr (Nat.le_trans several (inside.count_le digest))

end

/-! ## What the survey says -/

section

variable (grammar : Grammar) (files : Files) (root : Path)

/-- The occurrences that a survey collects, by the scripts that are read. -/
theorem occurrencesIn_files :
    occurrencesIn (surveyAt grammar files root).files =
      occurrences (readScripts grammar files root) := by
  have listed : ((surveyAt grammar files root).files.map fun entry => (entry.1, entry.2.digests)) =
      (readScripts grammar files root).map fun script => (script.file, script.digests) := by
    rw [map_digests_files, readScripts]
    apply ext_getElem?
    intro position
    simp only [getElem?_map, getElem?_mapIdx, Option.map_map]
    rfl
  have pairs := congrArg (flatMap fun pair : String × List String =>
    pair.2.map fun digest => (⟨digest, pair.1⟩ : Occurrence)) listed
  rw [flatMap_map, flatMap_map] at pairs
  exact pairs

/-- The findings for duplicates, by the scripts that are read. -/
theorem filter_findings_eq :
    (surveyAt grammar files root).findings.filter (fun finding => finding.category = .duplication) =
      (repeatedIn (occurrences (readScripts grammar files root))).map fun digest =>
        duplicationFinding (placesOf (occurrences (readScripts grammar files root)) digest) := by
  rw [filter_findings, duplicationFindings_eq, occurrencesIn_files]

end

/-- No text stands for two scripts. -/
theorem nodup_file_readScripts {files : Files} (whole : files.root.hasWholeNames = true)
    (own : files.root.hasOwnNames = true) (root : Path) (grammar : Grammar) :
    ((readScripts grammar files root).map ReadScript.file).Nodup := by
  have paths : (readScripts grammar files root).map ReadScript.file =
      (files.walked isKept isScript root).map relativeText := by
    rw [readScripts]
    apply ext_getElem?
    intro position
    simp only [getElem?_map, getElem?_mapIdx, Option.map_map]
    rfl
  rw [paths]
  apply (nodup_walked own).map_on
  intro first early second late equal
  exact Analysis.sourcePath_eq whole early late equal

/-- The number in the message is that of the places. -/
theorem length_eq_of_message {first second : List String}
    (same : (duplicationFinding first).message = "Code duplication detected across " ++
      toString second.length ++ " files.") : first.length = second.length := by
  have digits := String.append_right_inj _ |>.mp (String.append_left_inj _ |>.mp same)
  exact Text.numeral_inj.mp digits

/-- A finding counts files exactly when no script repeats the function. -/
theorem countsFiles_iff {scripts : List ReadScript} {digest : String} :
    CountsFiles scripts digest (duplicationFinding (placesOf (occurrences scripts) digest)) ↔
      ∀ script ∈ scripts, script.digests.count digest ≤ 1 := by
  constructor
  · intro counts
    exact once_of_length_eq (length_eq_of_message counts.number)
  · intro once
    rw [placesOf_eq_holders once]
    exact ⟨rfl, rfl⟩

/-- A duplicate is told with the number of files in which its function stands, and with each of
them once, exactly when no script repeats that function.  So all duplicates of a repository are
told like this exactly when no script has two functions with one digest. -/
theorem duplicates_count_files_iff {files : Files} (whole : files.root.hasWholeNames = true)
    (own : files.root.hasOwnNames = true) (root : Path) (grammar : Grammar) :
    let scripts := readScripts grammar files root
    let told := (surveyAt grammar files root).findings.filter fun finding =>
      finding.category = .duplication
    (∀ digest, (holders scripts digest).Nodup) ∧
      Forall₂ (fun digest finding => CountsFiles scripts digest finding ↔
        ∀ script ∈ scripts, script.digests.count digest ≤ 1) (repeatedIn (occurrences scripts))
        told ∧
      (Forall₂ (CountsFiles scripts) (repeatedIn (occurrences scripts)) told ↔
        ∀ script ∈ scripts, script.digests.Nodup) := by
  refine ⟨?_, ?_, ?_⟩
  · intro digest
    exact (nodup_file_readScripts whole own root grammar).sublist
      (filter_sublist.map ReadScript.file)
  · rw [filter_findings_eq, forall₂_map_right_iff, forall₂_same]
    exact fun digest _ => countsFiles_iff
  · rw [filter_findings_eq, forall₂_map_right_iff, forall₂_same]
    constructor
    · intro counts script member
      rw [nodup_iff_count_le_one]
      intro digest
      by_contra several
      have listed := mem_repeatedIn_of_mem member (Nat.lt_of_not_le several)
      exact several (countsFiles_iff.mp (counts digest listed) script member)
    · intro distinct digest _
      refine countsFiles_iff.mpr fun script member => ?_
      exact nodup_iff_count_le_one.mp (distinct script member) digest

/-- A directory with two scripts. -/
def twoScripts (first second : String) : Files :=
  ⟨.dir [("a.js", .file (.bytes (textBytes first))),
    ("b.js", .file (.bytes (textBytes second)))], []⟩

/-- The functions of a script as they are found in its bytes. -/
def functionsIn (content : String) : List Function :=
  functions (Text.unifyNewlines (Text.decodeLenient (textBytes content)))

theorem readScripts_twoScripts (first second : String) :
    readScripts .absent (twoScripts first second) [] =
      [⟨"a.js", functionsIn first⟩, ⟨"b.js", functionsIn second⟩] := by
  have paths : sourcePaths (twoScripts first second) [] = [["a.js"], ["b.js"]] := by
    have named : isScript "a.js" = true ∧ isScript "b.js" = true := by decide +kernel
    rw [sourcePaths, visits, stat_nil]
    simp [twoScripts, Entry.visits, visitsBelow, folderNames, fileNames,
      Entry.isFolder, named, isKept, ignoredDirectories]
  have readFirst : (twoScripts first second).stat ["a.js"] =
      .ok (.file (.bytes (textBytes first))) :=
    stat_singleton rfl (by decide) (if_pos rfl) rfl
  have readSecond : (twoScripts first second).stat ["b.js"] =
      .ok (.file (.bytes (textBytes second))) :=
    stat_singleton rfl (by decide) rfl rfl
  simp only [readScripts, paths, mapIdx_cons, mapIdx_nil, nil_append,
    readLenient, open?, readFirst, readSecond]
  rfl

/-- A function with nothing in it. -/
def emptyFunction : String := "function f() \x7b\x7d"

/-- A script in which only that function stands, once on each of some lines. -/
def emptyScript (file : String) (lines : List Nat) : ReadScript :=
  ⟨file, lines.map fun line => ⟨"f", line, emptyFunction.toList⟩⟩

theorem file_emptyScript (file : String) (lines : List Nat) :
    (emptyScript file lines).file = file := rfl

theorem digests_emptyScript (file : String) (lines : List Nat) :
    (emptyScript file lines).digests = lines.map fun _ => Digest.ofText emptyFunction := by
  have normal : Text.scriptForm emptyFunction.toList = emptyFunction.toList := by decide +kernel
  have digest : ∀ line, bodyDigest? ⟨"f", line, emptyFunction.toList⟩ =
      some (Digest.ofText emptyFunction) := by
    intro line
    rw [bodyDigest?, normal, String.ofList_toList]
    rfl
  rw [ReadScript.digests, emptyScript, filterMap_map, ← filterMap_eq_map]
  exact congrArg (fun read => filterMap read lines) (funext digest)

theorem readScripts_shared :
    readScripts .absent (twoScripts emptyFunction emptyFunction) [] =
      [emptyScript "a.js" [1], emptyScript "b.js" [1]] := by
  rw [readScripts_twoScripts]
  decide +kernel

theorem readScripts_repeated :
    readScripts .absent (twoScripts (emptyFunction ++ "\n" ++ emptyFunction) emptyFunction) [] =
      [emptyScript "a.js" [1, 2], emptyScript "b.js" [1]] := by
  rw [readScripts_twoScripts]
  decide +kernel

/-- The function that two scripts share is told once, with both of them. -/
theorem sharedFunction_counted :
    let scripts := readScripts .absent (twoScripts emptyFunction emptyFunction) []
    repeatedIn (occurrences scripts) = [Digest.ofText emptyFunction] ∧
      holders scripts (Digest.ofText emptyFunction) = ["a.js", "b.js"] ∧
      Forall₂ (CountsFiles scripts) (repeatedIn (occurrences scripts))
        ((surveyAt .absent (twoScripts emptyFunction emptyFunction) []).findings.filter
          fun finding => finding.category = .duplication) := by
  have counted := (@duplicates_count_files_iff (twoScripts emptyFunction emptyFunction)
    (by decide) (by decide) [] .absent).2.2
  refine ⟨?_, ?_, counted.mpr ?_⟩
  · rw [readScripts_shared]
    simp [repeatedIn, digestsOf, occurrences, digests_emptyScript, eraseDups_cons]
  · rw [readScripts_shared]
    simp [holders, digests_emptyScript, file_emptyScript]
  · rw [readScripts_shared]
    simp [digests_emptyScript]

/-- If one of the two has the function twice, three files are told of. -/
theorem repeatedFunction_miscounted :
    let files := twoScripts (emptyFunction ++ "\n" ++ emptyFunction) emptyFunction
    let scripts := readScripts .absent files []
    repeatedIn (occurrences scripts) = [Digest.ofText emptyFunction] ∧
      holders scripts (Digest.ofText emptyFunction) = ["a.js", "b.js"] ∧
      ∃ finding, (surveyAt .absent files []).findings.filter
          (fun finding => finding.category = .duplication) = [finding] ∧
        finding.message = "Code duplication detected across 3 files." ∧
        finding.details.map Details.evidence = some "[\"a.js\", \"a.js\", \"b.js\"]" ∧
        ¬ CountsFiles scripts (Digest.ofText emptyFunction) finding := by
  have digests : repeatedIn (occurrences (readScripts .absent
      (twoScripts (emptyFunction ++ "\n" ++ emptyFunction) emptyFunction) [])) =
        [Digest.ofText emptyFunction] := by
    rw [readScripts_repeated]
    simp [repeatedIn, digestsOf, occurrences, digests_emptyScript, eraseDups_cons]
  have places : placesOf (occurrences (readScripts .absent
      (twoScripts (emptyFunction ++ "\n" ++ emptyFunction) emptyFunction) []))
        (Digest.ofText emptyFunction) = ["a.js", "a.js", "b.js"] := by
    rw [readScripts_repeated]
    simp [placesOf, occurrences, digests_emptyScript, file_emptyScript]
  refine ⟨digests, ?_, duplicationFinding ["a.js", "a.js", "b.js"], ?_, ?_, ?_, ?_⟩
  · rw [readScripts_repeated]
    simp [holders, digests_emptyScript, file_emptyScript]
  · rw [filter_findings_eq, digests, map_singleton, places]
  · rfl
  · decide +kernel
  · rw [← places, countsFiles_iff, readScripts_repeated]
    simp [digests_emptyScript]

end Script
end Survey
end CodeQuality
