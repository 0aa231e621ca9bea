import CodeQuality.Proofs.Analysis.Lossless
import CodeQuality.Proofs.Files.Walking
import CodeQuality.Proofs.Survey.Accounting

namespace CodeQuality

open Files Survey.Script List

namespace Survey

/-!
Which files a survey reports on.

The sources below a directory are described without a walk: they are entries that are
no directories, found by their names one after the other, with no ignored directory
and no link to a directory on the way.  A survey reports on each of them, on nothing
else, and on none of them twice, and its summary begins with their number.
-/

/-- A path below a directory is that of a source of a language, whose files are told by their
names. -/
structure IsSource (files : Files) (root : Path) (isNamed : String → Prop)
    (path : Path) : Prop where
  /-- Something is there. -/
  present : ∃ entry, Found files root path entry
  /-- It is no directory, and no link to one. -/
  noDirectory : files.isDir (root ++ path) = false
  /-- Its name is that of a file of the language. -/
  named : ∃ name, path.getLast? = some name ∧ isNamed name
  /-- No directory on the way is ignored. -/
  passable : ∀ name ∈ path.dropLast, name ∉ ignoredDirectories
  /-- No link to a directory is on the way. -/
  direct : ∀ before, before <+: path → ¬ LinkedDirectory files root before

/-- A survey reports on the sources below a directory, each of them once, and on nothing else. -/
structure Covers (files : Files) (root : Path) (isNamed : String → Prop) (label : String)
    (survey : Survey) : Prop where
  sources : ∃ paths : List Path, paths.Nodup ∧
    (∀ path, path ∈ paths ↔ IsSource files root isNamed path) ∧
    survey.files.map Prod.fst = paths.map relativeText
  /-- No text stands for two files. -/
  distinct : (survey.files.map Prod.fst).Nodup
  /-- The summary begins with the number of files. -/
  counted : ("Found " ++ toString survey.files.length ++ label).toList <+: survey.summary.toList

section

variable {files : Files} {root : Path}

/-- What a survey walks through are the sources. -/
theorem mem_walked_iff_isSource (own : files.root.hasOwnNames = true) {isWanted : String → Bool}
    {isNamed : String → Prop} (same : ∀ name, isWanted name = true ↔ isNamed name) (path : Path) :
    path ∈ files.walked isKept isWanted root ↔ IsSource files root isNamed path := by
  have kept : ∀ name, isKept name = true ↔ name ∉ ignoredDirectories := by
    intro name
    rw [isKept, Bool.not_eq_true', contains_eq_mem, decide_eq_false_iff_not]
  rcases eq_nil_or_concat path with rfl | ⟨folder, name, rfl⟩
  · constructor
    · intro member
      rcases mem_flatMap.mp member with ⟨visit, _, listed⟩
      rcases mem_map.mp listed with ⟨name, _, equal⟩
      cases append_ne_nil_of_right_ne_nil visit.path (cons_ne_nil name []) equal
    · intro source
      rcases source.named with ⟨name, last, _⟩
      cases last
  · rw [concat_eq_append, mem_walked_iff own]
    simp only [kept, same]
    constructor
    · rintro ⟨wanted, passed, present, noDirectory, direct⟩
      exact ⟨present, noDirectory, ⟨name, getLast?_concat, wanted⟩,
        by rwa [dropLast_concat], direct⟩
    · rintro ⟨present, noDirectory, ⟨last, final, wanted⟩, passable, direct⟩
      rw [getLast?_concat, Option.some.injEq] at final
      rw [dropLast_concat] at passable
      exact ⟨final ▸ wanted, passable, present, noDirectory, direct⟩

/-- A survey that reports on what it walks through covers the sources. -/
theorem covers_of_walked (whole : files.root.hasWholeNames = true)
    (own : files.root.hasOwnNames = true) {isWanted : String → Bool} {isNamed : String → Prop}
    (same : ∀ name, isWanted name = true ↔ isNamed name) {label : String} {survey : Survey}
    (reported : survey.files.map Prod.fst =
      (files.walked isKept isWanted root).map relativeText)
    (counted : ("Found " ++ toString survey.files.length ++ label).toList <+:
      survey.summary.toList) : Covers files root isNamed label survey where
  sources := ⟨files.walked isKept isWanted root, nodup_walked own,
    mem_walked_iff_isSource own same, reported⟩
  distinct := by
    rw [reported]
    apply (nodup_walked own).map_on
    intro first early second late equal
    exact Analysis.sourcePath_eq whole early late equal
  counted := counted

/-- The reports of a survey of scripts are on the paths that it walks through. -/
theorem Script.map_fst_files (grammar : Grammar) (files : Files) (root : Path) :
    (surveyAt grammar files root).files.map Prod.fst =
      (sourcePaths files root).map relativeText := by
  apply ext_getElem?
  intro position
  simp only [surveyAt, map_map, getElem?_map, getElem?_mapIdx,
    Option.map_map]
  rfl

end

/-- A text begins as it did when something is put behind it. -/
theorem prefix_append_text {front text : String} (begins : front.toList <+: text.toList)
    (more : String) : front.toList <+: (text ++ more).toList := by
  rw [String.toList_append]
  exact begins.trans (prefix_append _ _)

theorem Python.summary_begins (fileCount : Nat) (findings : List Finding) :
    ("Found " ++ toString fileCount ++ " Python files, ").toList <+:
      (Python.summary fileCount findings).toList := by
  unfold Python.summary
  iterate 12 apply prefix_append_text
  exact prefix_refl _

theorem Script.summary_begins (grammar : Grammar) (fileCount : Nat) (findings : List Finding) :
    ("Found " ++ toString fileCount ++ " JS/TS files, ").toList <+:
      (summary grammar fileCount findings).toList := by
  unfold summary
  iterate 3 apply prefix_append_text
  exact prefix_refl _

/-- Surveys of both languages cover the sources below a directory. -/
theorem surveys_cover_the_sources {files : Files} (whole : files.root.hasWholeNames = true)
    (own : files.root.hasOwnNames = true) (root : Path) :
    (files.isDir root = true → ∀ tools, ∃ survey,
      Python.surveyAt tools files root = .ok survey ∧
        Covers files root (fun name => ".py".toList <:+ name.toList) " Python files, " survey) ∧
    ∀ grammar, Covers files root
      (fun name => Text.lowerString (suffix name) ∈ [".js", ".jsx", ".mjs", ".ts", ".tsx"])
      " JS/TS files, " (Script.surveyAt grammar files root) := by
  constructor
  · intro isRepository tools
    rcases Analysis.surveyAt_of_isDir tools isRepository with ⟨survey, done⟩
    rcases Python.of_surveyAt done with ⟨reports, _, summed⟩
    have named : ∀ name, endsWith ".py" name = true ↔ ".py".toList <:+ name.toList :=
      fun _ => isSuffixOf_iff_suffix
    have reported : survey.files.map Prod.fst =
        (files.walked isKept (endsWith ".py") root).map relativeText := by
      rw [reports, map_map]
      rfl
    have counted := Python.summary_begins survey.files.length survey.findings
    rw [← summed] at counted
    exact ⟨survey, done, covers_of_walked whole own named reported counted⟩
  · intro grammar
    have named : ∀ name, isScript name = true ↔
        Text.lowerString (suffix name) ∈ [".js", ".jsx", ".mjs", ".ts", ".tsx"] :=
      fun _ => contains_iff_mem
    have summed : (Script.surveyAt grammar files root).summary =
        Script.summary grammar (Script.surveyAt grammar files root).files.length
          (Script.surveyAt grammar files root).findings := by
      simp only [surveyAt, length_map]
    have counted := summary_begins grammar
      (Script.surveyAt grammar files root).files.length
      (Script.surveyAt grammar files root).findings
    rw [← summed] at counted
    exact covers_of_walked whole own named (map_fst_files grammar files root) counted

/-- A directory that is called like a file, an ignored directory, a link to a directory and a
link to nothing. -/
def variedFiles : Files :=
  ⟨.dir [("app.py", .file (.bytes [])),
    ("lib", .dir [("App.JSX", .file (.bytes [])), ("up", .link "..")]),
    ("lost.py", .link "nowhere"),
    ("node_modules", .dir [("bundle.js", .file (.bytes []))]),
    ("package.py", .dir [("inner.py", .file (.bytes []))])], []⟩

theorem variedFiles_visits : variedFiles.visits isKept [] =
    [⟨[], ["lib", "node_modules", "package.py"], ["app.py", "lost.py"]⟩,
      ⟨["lib"], ["up"], ["App.JSX"]⟩, ⟨["package.py"], [], ["inner.py"]⟩] := by
  have nowhere : names "nowhere" = ["nowhere"] ∧ isAbsolute "nowhere" = false := by
    decide
  have upwards : names ".." = [".."] ∧ isAbsolute ".." = false := by decide
  have lost : variedFiles.isDir ["lost.py"] = false := by
    simp [isDir, stat, statFrom, variedFiles, Entry.at?,
      Entry.find?, maxLinks, nowhere]
  have up : variedFiles.isDir ["lib", "up"] = true := by
    simp [isDir, stat, statFrom, variedFiles, Entry.at?,
      Entry.find?, maxLinks, upwards]
  have visited : ∀ linked : Path → Bool, linked ["lost.py"] = false →
      linked ["lib", "up"] = true → variedFiles.root.visits linked isKept [] =
        [⟨[], ["lib", "node_modules", "package.py"], ["app.py", "lost.py"]⟩,
          ⟨["lib"], ["up"], ["App.JSX"]⟩, ⟨["package.py"], [], ["inner.py"]⟩] := by
    intro linked noFolder folder
    simp [variedFiles, Entry.visits, visitsBelow, folderNames,
      fileNames, Entry.isFolder, noFolder, folder, isKept, ignoredDirectories]
  rw [visits, stat_nil]
  exact visited (fun path => variedFiles.isDir ([] ++ path)) lost up

/-- Of these files two surveys cover four: the link to nothing and what is in the directory that is
called like a file are among them. -/
theorem variedFiles_covered :
    (∃ survey, Python.surveyAt .plain variedFiles [] = .ok survey ∧
      survey.files.map Prod.fst = ["app.py", "lost.py", "package.py/inner.py"] ∧
      Covers variedFiles [] (fun name => ".py".toList <:+ name.toList) " Python files, "
        survey) ∧
    (Script.surveyAt .absent variedFiles []).files.map Prod.fst = ["lib/App.JSX"] ∧
    Covers variedFiles []
      (fun name => Text.lowerString (suffix name) ∈ [".js", ".jsx", ".mjs", ".ts", ".tsx"])
      " JS/TS files, " (Script.surveyAt .absent variedFiles []) := by
  have isRepository : variedFiles.isDir [] = true := by
    rw [isDir, stat_nil]
    rfl
  have covered := @surveys_cover_the_sources variedFiles (by decide) (by decide) []
  rcases covered.1 isRepository .plain with ⟨survey, done, covers⟩
  refine ⟨⟨survey, done, ?_, covers⟩, ?_, covered.2 .absent⟩
  · rw [(Python.of_surveyAt done).1, Python.sourcePaths, variedFiles_visits, map_map]
    decide +kernel
  · rw [map_fst_files, sourcePaths, variedFiles_visits]
    decide +kernel

end Survey
end CodeQuality
