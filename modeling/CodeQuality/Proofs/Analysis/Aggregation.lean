import CodeQuality.Proofs.Analysis.Distinct
import CodeQuality.Proofs.Files.Stat
import CodeQuality.Proofs.Score

namespace CodeQuality
namespace Analysis

/-!
Putting surveys together.

Every analysis of a directory comes to an end with a result.  Its issues are what
remains of the findings of all requested languages, one survey after the other, when
repeated identifiers are removed; hotness is counted over what remains, and the score
of the repository is computed from the issues and the number of files reported on.
A language that is asked for twice is surveyed twice, and nothing is said here of what
a survey finds.
-/

open Survey

/-! ## Surveys one after the other -/

/-- The reports and the findings that the survey of one language gives. -/
def surveyed (reading : Reading) (files : Files) (root : Files.Path) :
    RequestedLanguage → List (String × FileReport) × List Finding
  | .python =>
      match Python.surveyAt reading.tools files root with
      | .ok survey => (survey.files, survey.findings)
      | .error _ => ([], [])
  | .script =>
      let survey := Script.surveyAt reading.grammar files root
      (survey.files, survey.findings)
  | .unknown text => ([], [languageFinding text])

/-- The findings of all requested languages, one survey after the other. -/
def emitted (reading : Reading) (files : Files) (root : Files.Path)
    (requested : List RequestedLanguage) : List Finding :=
  requested.flatMap fun language => (surveyed reading files root language).2

theorem emitted_cons (reading : Reading) (files : Files) (root : Files.Path)
    (language : RequestedLanguage) (rest : List RequestedLanguage) :
    emitted reading files root (language :: rest) =
      (surveyed reading files root language).2 ++ emitted reading files root rest :=
  List.flatMap_cons

/-- Put reports among others one after the other. -/
def putReports (added files : List (String × FileReport)) : List (String × FileReport) :=
  added.foldl (fun files (path, report) => putReport path report files) files

/-- The reports of all requested languages by path.  Of several reports on one path the last
stays. -/
def reported (reading : Reading) (files : Files) (root : Files.Path)
    (requested : List RequestedLanguage) : List (String × FileReport) :=
  putReports (requested.flatMap fun language => (surveyed reading files root language).1) []

variable {files : Files} {root : Files.Path}

theorem surveyAt_of_isDir (tools : Python.Tools) (isRepository : files.isDir root = true) :
    ∃ survey, Python.surveyAt tools files root = .ok survey := by
  rcases Files.isDir_eq_true.mp isRepository with ⟨listing, found⟩
  rw [Python.surveyAt, found]
  exact ⟨_, rfl⟩

/-- Surveying one more language appends its findings and puts its reports among those that are
there. -/
theorem collect_cons (reading : Reading) (isRepository : files.isDir root = true)
    (language : RequestedLanguage) (rest : List RequestedLanguage) (collected : Collected) :
    ∃ next, collect reading files root collected (language :: rest) =
        collect reading files root next rest ∧
      next.findings = collected.findings ++ (surveyed reading files root language).2 ∧
      next.files = putReports (surveyed reading files root language).1 collected.files := by
  cases language with
  | python =>
      rcases surveyAt_of_isDir reading.tools isRepository with ⟨survey, found⟩
      refine ⟨collected.add "py" survey, ?_, ?_, ?_⟩
      · rw [collect, found]
        rfl
      · rw [surveyed, found]
        rfl
      · rw [surveyed, found]
        rfl
  | script => exact ⟨_, rfl, rfl, rfl⟩
  | unknown text => exact ⟨_, rfl, rfl, rfl⟩

/-- Surveying languages one after the other gives all their findings and reports. -/
theorem collect_of_isDir (reading : Reading) (isRepository : files.isDir root = true)
    (requested : List RequestedLanguage) (collected : Collected) :
    ∃ gathered, collect reading files root collected requested = .ok gathered ∧
      gathered.findings = collected.findings ++ emitted reading files root requested ∧
      gathered.files = putReports
        (requested.flatMap fun language => (surveyed reading files root language).1)
        collected.files := by
  induction requested generalizing collected with
  | nil => exact ⟨collected, rfl, (List.append_nil _).symm, rfl⟩
  | cons language rest ih =>
      rcases collect_cons reading isRepository language rest collected with
        ⟨next, step, findings, reports⟩
      rcases ih next with ⟨gathered, run, moreFindings, moreReports⟩
      refine ⟨gathered, step.trans run, ?_, ?_⟩
      · rw [moreFindings, findings, List.append_assoc, emitted_cons]
      · rw [moreReports, reports, List.flatMap_cons, putReports, putReports, putReports,
          List.foldl_append]

theorem nodup_map_fst_reported (reading : Reading) (files : Files) (root : Files.Path)
    (requested : List RequestedLanguage) :
    ((reported reading files root requested).map Prod.fst).Nodup := by
  simp only [reported, putReports, putReport_eq]
  exact nodup_map_key_foldl_put Prod.fst _ [] List.nodup_nil

/-! ## Scores -/

/-- A finding with the score that it gets among all findings. -/
def withScore (findings : List Finding) (finding : Finding) : ScoredFinding :=
  ⟨finding, Score.ofFinding finding.severity (hotnessOf findings finding)⟩

theorem scored_eq (findings : List Finding) (finding : Finding) :
    scored findings finding = .ok (withScore findings finding) := by
  have known := Score.ofIssue_members finding [] (hotnessOf findings finding) rfl
  rw [List.append_nil] at known
  rw [scored, Finding.toJson, known]
  rfl

theorem mapM_scored (all findings : List Finding) :
    findings.mapM (scored all) = .ok (findings.map (withScore all)) :=
  Outcome.mapM_eq_ok fun finding _ => scored_eq all finding

theorem map_finding_withScore (all findings : List Finding) :
    (findings.map (withScore all)).map ScoredFinding.finding = findings := by
  rw [List.map_map]
  exact List.map_id findings

theorem withScore_range (findings : List Finding) (finding : Finding) :
    0 ≤ (withScore findings finding).score ∧ (withScore findings finding).score ≤ 100 := by
  have bounded := Score.ofFinding_le finding.severity (hotnessOf findings finding)
  rw [withScore]
  constructor <;> simp only <;> omega

/-- The record of an issue is scored like the finding it comes from: its own score is no part of
what is scored. -/
theorem ofIssue_withScore (findings : List Finding) (finding : Finding) :
    Score.ofIssue (withScore findings finding).toJson (.nat (hotnessOf findings finding))
      Score.neutralWeight = .ok (withScore findings finding).score :=
  Score.ofIssue_members finding _ _ rfl

/-- The issues of an analysis of given findings. -/
def issuesOf (findings : List Finding) : List ScoredFinding :=
  (distinct findings).map (withScore (distinct findings))

/-- Every analysis of a directory has a result, made of what its surveys gave. -/
theorem ofRepository_eq (request : Request) {path : String} {languages : Json} (isIndexed : Bool)
    {requested : List RequestedLanguage} (rooted : ∃ listing, files.root = .dir listing)
    (located : rootOf files path = .ok root)
    (listed : RequestedLanguage.list languages = .ok requested) :
    ∃ analysis, ofRepository request files path languages isIndexed = .ok analysis ∧
      analysis.issues = issuesOf (emitted request.reading files root requested) ∧
      analysis.files = (reported request.reading files root requested).map
        (fun (path, report) => (path, scoredReport analysis.issues report)) ∧
      Score.ofRepository (.arr (analysis.issues.map ScoredFinding.toJson))
        (.nat analysis.files.length) Score.neutralWeight = .ok analysis.overallScore ∧
      0 ≤ analysis.overallScore ∧ analysis.overallScore ≤ 100 := by
  rcases collect_of_isDir request.reading (isDir_of_rootOf rooted located) requested ⟨[], [], []⟩
    with ⟨gathered, collected, findings, reports⟩
  have whole : gathered.findings = emitted request.reading files root requested := findings
  have filed : gathered.files = reported request.reading files root requested := reports
  have ranged : ∀ issue ∈ issuesOf gathered.findings, 0 ≤ issue.score ∧ issue.score ≤ 100 := by
    intro issue member
    rcases List.mem_map.mp member with ⟨finding, _, equal⟩
    exact equal ▸ withScore_range _ finding
  rcases Score.ofRepository_scores (issuesOf gathered.findings) gathered.files.length ranged with
    ⟨overall, scores, lower, upper⟩
  have scoredAll : (distinct gathered.findings).mapM (scored (distinct gathered.findings)) =
      .ok (issuesOf gathered.findings) := mapM_scored _ _
  rw [← whole, ← filed]
  simp only [ofRepository, located, listed, collected, scoredAll, bind, Except.bind, scores, pure,
    Except.pure]
  exact ⟨_, rfl, rfl, rfl, by rw [List.length_map, scores], lower, upper⟩

/-! ## The whole -/

/-- How many issues have the file of an issue; one when it has no file. -/
def sharing (issues : List ScoredFinding) (issue : ScoredFinding) : Nat :=
  match issue.finding.file? with
  | some file => (issues.filter fun other => other.finding.file? = some file).length
  | none => 1

theorem hotnessOf_map_finding (issues : List ScoredFinding) (issue : ScoredFinding) :
    hotnessOf (issues.map ScoredFinding.finding) issue.finding = sharing issues issue := by
  rw [hotnessOf, sharing]
  cases issue.finding.file? with
  | none => rfl
  | some file =>
      simp only [hotness]
      rw [List.countP_map, List.countP_eq_length_filter]
      rfl

/-- An analysis of a directory has a result.  No two of its issues have one identifier.  The
identifiers are those of all findings in order of first occurrence, and each issue is the last
finding of its identifier.  It has the score that its record gets in the light of how many of the
issues are about its file, and the repository has the score of its issues and the number of files
reported on.  All scores are between zero and a hundred. -/
theorem ofRepository_aggregates (request : Request) (files : Files) (path : String)
    (languages : Json) (isIndexed : Bool) (root : Files.Path) (requested : List RequestedLanguage)
    (rooted : ∃ listing, files.root = .dir listing) (located : rootOf files path = .ok root)
    (listed : RequestedLanguage.list languages = .ok requested) :
    ∃ analysis, ofRepository request files path languages isIndexed = .ok analysis ∧
      (analysis.issues.map fun issue => issue.finding.id).Nodup ∧
      (analysis.issues.map fun issue => issue.finding.id) =
        ((emitted request.reading files root requested).map Finding.id).eraseDups ∧
      (∀ issue ∈ analysis.issues,
        IsLast (emitted request.reading files root requested) issue.finding ∧
        Score.ofIssue issue.toJson (.nat (sharing analysis.issues issue)) Score.neutralWeight =
          .ok issue.score ∧
        0 ≤ issue.score ∧ issue.score ≤ 100) ∧
      (analysis.files.map Prod.fst).Nodup ∧
      Score.ofRepository (.arr (analysis.issues.map ScoredFinding.toJson))
        (.nat analysis.files.length) Score.neutralWeight = .ok analysis.overallScore ∧
      0 ≤ analysis.overallScore ∧ analysis.overallScore ≤ 100 := by
  rcases ofRepository_eq request isIndexed rooted located listed with
    ⟨analysis, done, issues, reports, overall, lower, upper⟩
  generalize emitted request.reading files root requested = findings at issues ⊢
  have remaining : analysis.issues.map ScoredFinding.finding = distinct findings := by
    rw [issues]
    exact map_finding_withScore _ _
  have ids : (analysis.issues.map fun issue => issue.finding.id) =
      (distinct findings).map Finding.id := by
    rw [← remaining, List.map_map]
    rfl
  refine ⟨analysis, done, ?_, ?_, ?_, ?_, overall, lower, upper⟩
  · rw [ids]
    exact nodup_map_id_distinct findings
  · rw [ids]
    exact map_id_distinct findings
  · intro issue member
    have last : issue.finding ∈ distinct findings := remaining ▸ List.mem_map_of_mem member
    rw [issues] at member
    rcases List.mem_map.mp member with ⟨finding, _, equal⟩
    subst equal
    refine ⟨(mem_distinct findings _).mp last, ?_, withScore_range _ finding⟩
    rw [← hotnessOf_map_finding, remaining]
    exact ofIssue_withScore _ finding
  · have paths : analysis.files.map Prod.fst =
        (reported request.reading files root requested).map Prod.fst := by
      rw [reports, List.map_map]
      rfl
    rw [paths]
    exact nodup_map_fst_reported _ _ _ _

/-- A request that leaves everything else at its plainest: decisions are counted, and no grammar
and no retriever are there. -/
def plainRequest : Request := ⟨⟨.plain, .absent⟩, [], ⟨⟨739253⟩, 0⟩, false⟩

/-- A package and a script side by side, without tests. -/
def twoLanguageFiles : Files :=
  ⟨.dir [("core", .dir [("__init__.py", .file (.bytes []))]),
    ("page.js", .file (.bytes (Files.textBytes "eval(a); eval(b) // TODO")))], []⟩

/-- The package and the script, with a language asked for twice and one that is not known. -/
theorem twoLanguageFiles_aggregates :
    RequestedLanguage.list (.texts ["py", "js", "cobol", "js"]) =
        .ok [.python, .script, .unknown "cobol", .script] ∧
      ∃ analysis, ofRepository plainRequest twoLanguageFiles "/"
          (.texts ["py", "js", "cobol", "js"]) false = .ok analysis ∧
        (analysis.issues.map fun issue => issue.finding.id) =
          ((emitted plainRequest.reading twoLanguageFiles []
            [.python, .script, .unknown "cobol", .script]).map Finding.id).eraseDups ∧
        0 ≤ analysis.overallScore ∧ analysis.overallScore ≤ 100 := by
  have listed : RequestedLanguage.list (.texts ["py", "js", "cobol", "js"]) =
      .ok [.python, .script, .unknown "cobol", .script] := by
    rfl
  rcases ofRepository_aggregates plainRequest twoLanguageFiles "/" (.texts ["py", "js", "cobol",
    "js"]) false [] _ ⟨_, rfl⟩ (rootOf_slash _ ⟨_, rfl⟩) listed with ⟨analysis, done, _, ids, _, _,
    _, lower, upper⟩
  exact ⟨listed, analysis, done, ids, lower, upper⟩

end Analysis
end CodeQuality
