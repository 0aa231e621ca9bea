import CodeQuality.Proofs.Analysis.Origin
import CodeQuality.Proofs.Files.Agreement

namespace CodeQuality
namespace Analysis

/-!
What lies inside ignored directories.

Surveys read no file inside an ignored directory, so such files have no reports and no
findings of their own.  The search for tests is not so careful: scripts that are tests
count wherever they stand, and an ignored directory counts as a package if it holds
what makes one.  So of two repositories that agree outside ignored directories the
analyses agree exactly when the searches for tests do.
-/

open Survey Files Survey.Python List

section

variable {reading : Reading} {first second : Files} {root : Path}

/-! ## Files -/

theorem sourceAt_eq (agree : AgreeOutside isKept root first second) {isSource : String → Bool}
    {path : Path} (member : path ∈ (first.visits isKept root).flatMap fun visit =>
      (visit.files.filter isSource).map fun name => visit.path ++ [name]) :
    sourceAt first root path = sourceAt second root path := by
  rcases mem_flatMap.mp member with ⟨visit, visited, listed⟩
  rcases mem_map.mp listed with ⟨name, _, rfl⟩
  apply agree.readLenient_eq
  rw [dropLast_concat]
  exact kept_of_mem_visits visited

/-- Surveys say the same of the files of both repositories. -/
theorem surveyedFiles_eq (agree : AgreeOutside isKept root first second)
    (language : RequestedLanguage) :
    surveyedFiles reading first root language = surveyedFiles reading second root language := by
  cases language with
  | python =>
      have paths : sourcePaths first root = sourcePaths second root := by
        rw [sourcePaths, sourcePaths, agree.visits_eq]
      rw [surveyedFiles, surveyedFiles, ← paths]
      apply map_congr_left
      intro path member
      rw [sourceAt_eq agree member]
  | script =>
      have paths : Script.sourcePaths first root = Script.sourcePaths second root := by
        rw [Script.sourcePaths, Script.sourcePaths, agree.visits_eq]
      rw [surveyedFiles, surveyedFiles, ← paths]
      apply mapIdx_eq_mapIdx_iff.mpr
      intro position inRange
      rw [sourceAt_eq agree (getElem_mem inRange)]
  | unknown text => rfl

theorem fileFindings_eq (agree : AgreeOutside isKept root first second)
    (language : RequestedLanguage) :
    fileFindings reading first root language = fileFindings reading second root language := by
  cases language with
  | python => rw [fileFindings, fileFindings, surveyedFiles_eq agree]
  | script => rw [fileFindings, fileFindings, surveyedFiles_eq agree]
  | unknown text => rfl

end

section

variable {reading : Reading} {files : Files} {root : Path}

/-! ## The search for tests -/

/-- Whether a visited directory shows that there are script tests. -/
def showsTests (visit : Visit) : Bool :=
  visit.folders.contains "__tests__" ||
    visit.files.any fun name => Script.testEndings.any fun ending => endsWith ending name

/-- Whether there is a test command, or a script test outside ignored directories. -/
def visibleTests (files : Files) (root : Path) : Bool :=
  (files.holds (root ++ ["package.json"]) &&
      Script.hasTestCommand (files.readLenient (root ++ ["package.json"]))) ||
    (files.visits isKept root).any showsTests

/-- Whether there is a script test inside an ignored directory. -/
def hiddenTests (files : Files) (root : Path) : Bool :=
  (files.visits (fun _ => true) root).any fun visit =>
    !visit.path.all isKept && showsTests visit

/-- Tests count wherever they are. -/
theorem hasTests_eq (files : Files) (root : Path) :
    Script.hasTests files root = (visibleTests files root || hiddenTests files root) := by
  have parted : (files.visits (fun _ => true) root).any showsTests =
      ((files.visits isKept root).any showsTests || hiddenTests files root) := by
    rw [← filter_visits files isKept root, any_filter, hiddenTests, Bool.eq_iff_iff]
    simp only [any_eq_true, Bool.or_eq_true, Bool.and_eq_true, Bool.not_eq_true']
    constructor
    · rintro ⟨visit, member, shown⟩
      cases inside : visit.path.all isKept with
      | true => exact Or.inl ⟨visit, member, inside, shown⟩
      | false => exact Or.inr ⟨visit, member, inside, shown⟩
    · rintro (⟨visit, member, _, shown⟩ | ⟨visit, member, _, shown⟩)
      · exact ⟨visit, member, shown⟩
      · exact ⟨visit, member, shown⟩
  rw [visibleTests, Bool.or_assoc, ← parted]
  rfl

/-! ## Missing tests among all findings -/

/-- The kind of finding that says that tests in a language are missing. -/
def testKind : RequestedLanguage → Option Kind
  | .python => some .package
  | .script => some .scripts
  | .unknown _ => none

variable {language : RequestedLanguage} {kind : Kind}

theorem testKind_of_emission {finding : Finding}
    (emission : Emission reading files root language kind finding)
    (missing : kind.isMissingTest = true) : testKind language = some kind := by
  cases emission with
  | package untested member => rfl
  | scripts untested => rfl
  | _ => cases missing

theorem isMissingTest_of_testKind (known : testKind language = some kind) :
    kind.isMissingTest = true := by
  cases language <;> cases known <;> rfl

theorem eq_of_testKind {other : RequestedLanguage} (known : testKind language = some kind)
    (same : testKind other = some kind) : other = language := by
  cases language <;> cases known <;> cases other <;> cases same <;> rfl

/-- Only the survey of a language says that tests in it are missing, and its labels tell these
findings from all others. -/
theorem filter_surveyed (isRepository : files.isDir root = true)
    (known : testKind language = some kind) (other : RequestedLanguage) :
    ((surveyed reading files root other).2.filter fun finding => kind.opens finding.id) =
      if other = language then missingTests files root language else [] := by
  have missing := isMissingTest_of_testKind known
  have outside : (fileFindings reading files root other).filter
      (fun finding => kind.opens finding.id) = [] := by
    rw [filter_eq_nil_iff]
    intro finding member
    rcases mem_fileFindings.mp member with ⟨own, emission, present⟩
    rw [emission.opens_eq, decide_eq_true_eq]
    rintro rfl
    rw [missing] at present
    cases present
  rw [surveyed_eq isRepository, filter_append, outside, nil_append]
  by_cases same : other = language
  · rw [if_pos same, same, filter_eq_self]
    intro finding member
    rcases (mem_missingTests reading).mp member with ⟨own, emission, absent⟩
    rw [emission.opens_eq, decide_eq_true_eq]
    exact Option.some.inj (known.symm.trans (testKind_of_emission emission absent))
  · rw [if_neg same, filter_eq_nil_iff]
    intro finding member
    rcases (mem_missingTests reading).mp member with ⟨own, emission, absent⟩
    rw [emission.opens_eq, decide_eq_true_eq]
    rintro rfl
    exact same (eq_of_testKind known (testKind_of_emission emission absent))

/-- What an analysis says about missing tests in a language does not depend on how often the
language is asked for. -/
theorem distinct_filter_emitted (reading : Reading) (isRepository : files.isDir root = true)
    (known : testKind language = some kind) {requested : List RequestedLanguage}
    (asked : language ∈ requested) :
    distinct ((emitted reading files root requested).filter fun finding => kind.opens finding.id) =
      distinct (missingTests files root language) := by
  have cut : ∀ requested : List RequestedLanguage,
      (emitted reading files root requested).filter (fun finding => kind.opens finding.id) =
        requested.flatMap fun other =>
          if other = language then missingTests files root language else [] := by
    intro requested
    rw [emitted, filter_flatMap]
    congr 1
    funext other
    exact filter_surveyed isRepository known other
  rw [cut]
  clear cut
  induction requested with
  | nil => cases asked
  | cons other rest ih =>
      rw [flatMap_cons]
      by_cases later : language ∈ rest
      · by_cases same : other = language
        · rw [if_pos same, distinct_append_congr rfl (ih later), distinct_append_self]
        · rw [if_neg same, nil_append, ih later]
      · have same : other = language := ((mem_cons.mp asked).resolve_right later).symm
        have none : (rest.flatMap fun other =>
            if other = language then missingTests files root language else []) = [] := by
          rw [flatMap_eq_nil_iff]
          intro own member
          rw [if_neg]
          rintro rfl
          exact later member
        rw [if_pos same, none, append_nil]

end

/-! ## Two repositories -/

section

variable {reading : Reading} {first second : Files} {root : Path}

/-- The reports of both repositories agree. -/
theorem reported_eq (reading : Reading) (agree : AgreeOutside isKept root first second)
    (firstRepository : first.isDir root = true) (secondRepository : second.isDir root = true)
    (requested : List RequestedLanguage) :
    reported reading first root requested = reported reading second root requested := by
  simp only [reported, surveyed_eq firstRepository, surveyed_eq secondRepository,
    surveyedFiles_eq agree]

/-- What remains of the findings is the same exactly when what remains of those about missing tests
is. -/
theorem distinct_emitted_eq_iff (agree : AgreeOutside isKept root first second)
    (firstRepository : first.isDir root = true) (secondRepository : second.isDir root = true)
    (requested : List RequestedLanguage) :
    distinct (emitted reading first root requested) =
        distinct (emitted reading second root requested) ↔
      ∀ language ∈ requested,
        distinct (missingTests first root language) =
          distinct (missingTests second root language) := by
  constructor
  · intro same language asked
    cases known : testKind language with
    | none =>
        cases language with
        | unknown text => rfl
        | python => cases known
        | script => cases known
    | some kind =>
        rw [← distinct_filter_emitted reading firstRepository known asked,
          ← distinct_filter_emitted reading secondRepository known asked,
          ← filter_distinct, ← filter_distinct, same]
  · intro tests
    induction requested with
    | nil => rw [emitted, emitted, flatMap_nil, flatMap_nil]
    | cons language rest ih =>
        have here := tests language mem_cons_self
        have later := ih fun other member => tests other (mem_cons_of_mem _ member)
        rw [emitted_cons, emitted_cons]
        apply distinct_append_congr _ later
        rw [surveyed_eq firstRepository, surveyed_eq secondRepository, fileFindings_eq agree]
        exact distinct_append_congr rfl here

/-- What shows that there are script tests outside ignored directories is the same in both. -/
theorem visibleTests_eq (agree : AgreeOutside isKept root first second) :
    visibleTests first root = visibleTests second root := by
  have top : ∀ name ∈ (["package.json"] : Path).dropLast, isKept name = true := by
    intro name member
    cases member
  rw [visibleTests, visibleTests, agree.holds_eq top, agree.readLenient_eq top, agree.visits_eq]

theorem distinct_missingTests_script (agree : AgreeOutside isKept root first second) :
    distinct (missingTests first root .script) = distinct (missingTests second root .script) ↔
      visibleTests first root = true ∨ hiddenTests first root = hiddenTests second root := by
  rw [missingTests, missingTests, hasTests_eq, hasTests_eq, ← visibleTests_eq agree]
  cases visibleTests first root <;> cases hiddenTests first root <;>
    cases hiddenTests second root <;> simp [distinct, putFinding]

theorem distinct_missingTests_python (agree : AgreeOutside isKept root first second) :
    distinct (missingTests first root .python) = distinct (missingTests second root .python) ↔
      first.holds (root ++ ["tests"]) = true ∨
        distinct ((packages first root).map (testingFinding root)) =
          distinct ((packages second root).map (testingFinding root)) := by
  have top : ∀ name ∈ (["tests"] : Path).dropLast, isKept name = true := by
    intro name member
    cases member
  rw [missingTests, missingTests, testingFindings, testingFindings,
    ← agree.holds_eq top]
  cases first.holds (root ++ ["tests"]) <;> simp

/-- Only ignored directories can be packages of one repository and not of the other. -/
theorem packages_eq (agree : AgreeOutside isKept root first second) :
    (packages first root).filter isKept = (packages second root).filter isKept := by
  rw [packages, packages, filter_filter, filter_filter, agree.list_eq]
  apply filter_congr
  intro name _
  cases kept : isKept name with
  | false => simp only [Bool.false_and]
  | true =>
      have directory : first.isDir (root ++ [name]) = second.isDir (root ++ [name]) :=
        agree.isDir_eq fun above member => by cases member
      have opening : first.holds (root ++ [name, "__init__.py"]) =
          second.holds (root ++ [name, "__init__.py"]) :=
        agree.holds_eq fun above member => mem_singleton.mp member ▸ kept
      rw [directory, opening]

/-- What lies inside ignored directories makes no difference to the search for tests, as far as it
is asked for.  Script tests inside them are in both repositories or in neither, unless there are
some outside.  The packages leave the same findings, unless there is a directory of tests. -/
structure TestsAgree (root : Path) (first second : Files)
    (requested : List RequestedLanguage) : Prop where
  scripts : .script ∈ requested →
    visibleTests first root = true ∨ hiddenTests first root = hiddenTests second root
  packages : .python ∈ requested →
    first.holds (root ++ ["tests"]) = true ∨
      distinct ((packages first root).map (testingFinding root)) =
        distinct ((packages second root).map (testingFinding root))

theorem testsAgree_iff (agree : AgreeOutside isKept root first second)
    {requested : List RequestedLanguage} :
    TestsAgree root first second requested ↔
      ∀ language ∈ requested,
        distinct (missingTests first root language) =
          distinct (missingTests second root language) := by
  constructor
  · rintro ⟨scripts, packages⟩ language asked
    cases language with
    | python => exact (distinct_missingTests_python agree).mpr (packages asked)
    | script => exact (distinct_missingTests_script agree).mpr (scripts asked)
    | unknown text => rfl
  · intro tests
    exact ⟨fun asked => (distinct_missingTests_script agree).mp (tests .script asked),
      fun asked => (distinct_missingTests_python agree).mp (tests .python asked)⟩

/-- The issues of both repositories agree exactly when the searches for tests do. -/
theorem issuesOf_eq_iff (reading : Reading) (agree : AgreeOutside isKept root first second)
    (firstRepository : first.isDir root = true) (secondRepository : second.isDir root = true)
    (requested : List RequestedLanguage) :
    issuesOf (emitted reading first root requested) =
        issuesOf (emitted reading second root requested) ↔
      TestsAgree root first second requested := by
  rw [testsAgree_iff agree, ← distinct_emitted_eq_iff agree firstRepository secondRepository]
  constructor
  · intro same
    have findings := congrArg (map ScoredFinding.finding) same
    rwa [issuesOf, issuesOf, map_finding_withScore, map_finding_withScore] at findings
  · intro same
    rw [issuesOf, issuesOf, same]

end

/-- When what lies inside ignored directories makes no difference.  The analyses of two repositories
that agree outside ignored directories have results, with reports on the same files.  Their issues,
their reports and their scores are equal exactly when the searches for tests come to the same, and
for packages that depends on the ignored directories only. -/
theorem analyses_agree_iff_tests_agree (request : Request) (first second : Files) (path : String)
    (languages : Json) (isIndexed : Bool) (root : Path) (requested : List RequestedLanguage)
    (firstRooted : ∃ listing, first.root = .dir listing)
    (secondRooted : ∃ listing, second.root = .dir listing)
    (firstLocated : rootOf first path = .ok root) (secondLocated : rootOf second path = .ok root)
    (listed : RequestedLanguage.list languages = .ok requested)
    (agree : AgreeOutside isKept root first second) :
    ∃ one other, ofRepository request first path languages isIndexed = .ok one ∧
      ofRepository request second path languages isIndexed = .ok other ∧
      one.files.map Prod.fst = other.files.map Prod.fst ∧
      (packages first root).filter isKept = (packages second root).filter isKept ∧
      ((one.issues = other.issues ∧ one.files = other.files ∧
          one.overallScore = other.overallScore) ↔
        TestsAgree root first second requested) := by
  have firstRepository := isDir_of_rootOf firstRooted firstLocated
  have secondRepository := isDir_of_rootOf secondRooted secondLocated
  rcases ofRepository_eq request isIndexed firstRooted firstLocated listed with
    ⟨one, firstDone, firstIssues, firstFiles, firstScore, _⟩
  rcases ofRepository_eq request isIndexed secondRooted secondLocated listed with
    ⟨other, secondDone, secondIssues, secondFiles, secondScore, _⟩
  have reports := reported_eq request.reading agree firstRepository secondRepository requested
  refine ⟨one, other, firstDone, secondDone, ?_, packages_eq agree, ?_⟩
  · rw [firstFiles, secondFiles, reports, map_map, map_map]
    rfl
  rw [← issuesOf_eq_iff request.reading agree firstRepository secondRepository,
    ← firstIssues, ← secondIssues]
  constructor
  · exact And.left
  · intro issues
    have files : one.files = other.files := by
      rw [firstFiles, secondFiles, issues, reports]
    refine ⟨issues, files, ?_⟩
    rw [issues, files, secondScore] at firstScore
    exact (Except.ok.inj firstScore).symm

/-- A repository with nothing but an ignored directory that holds given files. -/
def bundled (content : List (String × Entry)) : Files :=
  ⟨.dir [("node_modules", .dir content)], []⟩

theorem bundled_agree (content other : List (String × Entry)) :
    AgreeOutside isKept [] (bundled content) (bundled other) := by
  have pruned : ∀ content, (bundled content).root.pruned isKept =
      .dir [("node_modules", .dir [])] := by
    intro content
    rfl
  apply AgreeOutside.of_pruned rfl
  · rw [pruned, pruned]
  · rw [pruned]
    rfl

/-- An ignored directory with a script and one with a test, with a language asked for twice. -/
theorem bundled_analyses_agree_iff :
    AgreeOutside isKept [] (bundled [("page.js", .file (.bytes []))])
        (bundled [("page.test.js", .file (.bytes []))]) ∧
      ∃ one other,
        ofRepository plainRequest (bundled [("page.js", .file (.bytes []))]) "/"
          (.texts ["js", "py", "js"]) false = .ok one ∧
        ofRepository plainRequest (bundled [("page.test.js", .file (.bytes []))]) "/"
          (.texts ["js", "py", "js"]) false = .ok other ∧
        ((one.issues = other.issues ∧ one.files = other.files ∧
            one.overallScore = other.overallScore) ↔
          TestsAgree [] (bundled [("page.js", .file (.bytes []))])
            (bundled [("page.test.js", .file (.bytes []))]) [.script, .python, .script]) := by
  have agree := bundled_agree [("page.js", .file (.bytes []))] [("page.test.js", .file (.bytes []))]
  have located := fun content => rootOf_slash (bundled content) ⟨_, rfl⟩
  rcases analyses_agree_iff_tests_agree plainRequest _ _ "/" (.texts ["js", "py", "js"]) false []
    [.script, .python, .script] ⟨_, rfl⟩ ⟨_, rfl⟩ (located _) (located _) rfl agree with ⟨one,
    other, firstDone, secondDone, _, _, same⟩
  exact ⟨agree, one, other, firstDone, secondDone, same⟩

theorem visibleTests_bundled : visibleTests (bundled []) [] = false := by
  have missing : Entry.find? "package.json"
      [("node_modules", Entry.dir [])] = none := if_neg (by decide)
  have absent : (bundled []).holds ["package.json"] = false := by
    rw [holds, stat_singleton_absent rfl (by decide) missing]
    rfl
  rw [visibleTests, nil_append, absent, visits, stat_nil]
  decide +kernel

/-- A test inside an ignored directory makes a difference. -/
theorem bundled_analyses_differ :
    AgreeOutside isKept [] (bundled []) (bundled [("page.test.js", .file (.bytes []))]) ∧
      ∃ one other,
        ofRepository plainRequest (bundled []) "/" (.texts ["js"]) false = .ok one ∧
        ofRepository plainRequest (bundled [("page.test.js", .file (.bytes []))]) "/"
          (.texts ["js"]) false = .ok other ∧
        one.issues ≠ other.issues := by
  have agree := bundled_agree [] [("page.test.js", .file (.bytes []))]
  have untested : hiddenTests (bundled []) [] = false := by
    rw [hiddenTests, visits, stat_nil]
    decide +kernel
  have tested : hiddenTests (bundled [("page.test.js", .file (.bytes []))]) [] = true := by
    rw [hiddenTests, visits, stat_nil]
    decide +kernel
  have listed : RequestedLanguage.list (.texts ["js"]) = .ok [.script] := rfl
  have located := fun content => rootOf_slash (bundled content) ⟨_, rfl⟩
  rcases ofRepository_eq plainRequest false ⟨_, rfl⟩ (located []) listed with
    ⟨one, firstDone, firstIssues, _⟩
  rcases ofRepository_eq plainRequest false ⟨_, rfl⟩ (located [("page.test.js", .file (.bytes []))])
    listed with ⟨other, secondDone, secondIssues, _⟩
  refine ⟨agree, one, other, firstDone, secondDone, ?_⟩
  intro same
  rw [firstIssues, secondIssues, issuesOf_eq_iff plainRequest.reading agree
    (isDir_of_rootOf ⟨_, rfl⟩ (located _)) (isDir_of_rootOf ⟨_, rfl⟩ (located _))] at same
  have searched := same.scripts (mem_singleton_self _)
  rw [visibleTests_bundled, untested, tested] at searched
  cases searched <;> contradiction

end Analysis
end CodeQuality
