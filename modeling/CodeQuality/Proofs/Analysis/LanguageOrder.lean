import CodeQuality.Proofs.Analysis.Origin
import Mathlib.Algebra.BigOperators.Group.List.Basic

namespace CodeQuality
namespace Analysis

/-!
The order in which languages are asked for.

Every survey owns its findings and its reports: an identifier tells which survey made
it, and the ending of a path tells which survey reports on it.  So surveys do not
overwrite each other, and a survey that is made again overwrites itself with the same.
Asking in another order, or more than once, moves issues and reports to other places
and changes nothing else.  The list of languages, which is part of an analysis, is the
exception, and it is not compared here.
-/

open Survey List

section

variable {reading : Reading} {files : Files} {root : Files.Path}

/-! ## What surveys own -/

/-- The language of the files whose paths have an ending. -/
def endingLanguage (ending : List Char) : RequestedLanguage :=
  if ending = ['p', 'y'] then .python else .script

/-- The ending of a path tells which survey reports on it. -/
theorem ending_of_mem_surveyed (isRepository : files.isDir root = true)
    {language : RequestedLanguage} {path : String} {report : FileReport}
    (member : (path, report) ∈ (surveyed reading files root language).1) :
    ∃ front ending, path.toList = front ++ '.' :: ending ∧ '.' ∉ ending ∧
      language = endingLanguage ending := by
  rw [surveyed_eq isRepository] at member
  rcases mem_map.mp member with ⟨entry, listed, equal⟩
  have named : entry.1 = path := congrArg Prod.fst equal
  subst named
  cases language with
  | python =>
      rcases mem_map.mp listed with ⟨place, source, equal⟩
      rcases mem_flatMap.mp source with ⟨visit, _, inside⟩
      rcases mem_map.mp inside with ⟨name, chosen, located⟩
      rcases Files.relativeText_concat visit.path name with ⟨front, text⟩
      have ends : ".py".toList <:+ name.toList := by
        rw [← isSuffixOf_iff_suffix]
        exact (mem_filter.mp chosen).2
      rcases ends with ⟨stem, spelled⟩
      refine ⟨front ++ stem, ['p', 'y'], ?_, by decide, rfl⟩
      rw [← equal, ← located, text, ← spelled, append_assoc]
      rfl
  | script =>
      rcases mem_mapIdx.mp listed with ⟨position, inRange, equal⟩
      rcases mem_flatMap.mp (getElem_mem inRange) with ⟨visit, _, inside⟩
      rcases mem_map.mp inside with ⟨name, chosen, located⟩
      rcases Files.relativeText_concat visit.path name with ⟨front, text⟩
      have known : Script.isScript name = true := (mem_filter.mp chosen).2
      have present : Files.suffix name ≠ "" := by
        intro missing
        rw [Script.isScript, missing] at known
        exact absurd known (by decide +kernel)
      rcases Files.suffix_eq present with ⟨stem, ending, spelled, clear, suffix⟩
      refine ⟨front ++ stem, ending, ?_, clear, ?_⟩
      · rw [← equal, ← located, text, spelled, append_assoc]
      · rw [endingLanguage, if_neg]
        rintro rfl
        rw [Script.isScript, suffix] at known
        exact absurd known (by decide +kernel)
  | unknown text => cases listed

/-- No path is reported on by two surveys. -/
theorem language_eq_of_path (isRepository : files.isDir root = true)
    (language other : RequestedLanguage) :
    ∀ first ∈ (surveyed reading files root language).1,
      ∀ second ∈ (surveyed reading files root other).1, first.1 = second.1 → language = other := by
  rintro ⟨path, report⟩ firstMember ⟨place, another⟩ secondMember same
  rcases ending_of_mem_surveyed isRepository firstMember with ⟨front, ending, text, clear, known⟩
  rcases ending_of_mem_surveyed isRepository secondMember with
    ⟨opening, closing, spelled, free, told⟩
  have cut : front ++ '.' :: ending = opening ++ '.' :: closing := by
    rw [← text, ← spelled]
    exact congrArg String.toList same
  rw [known, told, (Text.append_mark_inj clear free cut).2]

/-- No identifier is given by two surveys. -/
theorem language_eq_of_id (isRepository : files.isDir root = true)
    (language other : RequestedLanguage) :
    ∀ first ∈ (surveyed reading files root language).2,
      ∀ second ∈ (surveyed reading files root other).2, first.id = second.id →
        language = other := by
  intro first firstMember second secondMember same
  rcases (mem_surveyed isRepository).mp firstMember with ⟨_, emission⟩
  rcases (mem_surveyed isRepository).mp secondMember with ⟨_, another⟩
  exact emission.language_eq another same

variable {first second : List RequestedLanguage}

theorem distinct_emitted_perm (isRepository : files.isDir root = true)
    (same : ∀ language, language ∈ first ↔ language ∈ second) :
    (distinct (emitted reading files root first)).Perm
      (distinct (emitted reading files root second)) := by
  simp only [distinct, putFinding_eq]
  exact foldl_put_flatMap_perm Finding.id _ (language_eq_of_id isRepository) same

theorem reported_perm (isRepository : files.isDir root = true)
    (same : ∀ language, language ∈ first ↔ language ∈ second) :
    (reported reading files root first).Perm (reported reading files root second) := by
  simp only [reported, putReports, putReport_eq]
  exact foldl_put_flatMap_perm Prod.fst _ (language_eq_of_path isRepository) same

end

/-! ## Scores and counts -/

section

variable {first second : List Finding}

/-- Scores are given by numbers of findings, which have no order. -/
theorem withScore_perm (permuted : first.Perm second) : withScore first = withScore second := by
  funext finding
  have heat : hotnessOf first finding = hotnessOf second finding := by
    cases placed : finding.file? with
    | none => simp only [hotnessOf, placed]
    | some file => simp only [hotnessOf, placed, hotness, permuted.countP_eq]
  rw [withScore, withScore, heat]

theorem summaryOf_perm (permuted : first.Perm second) : summaryOf first = summaryOf second := by
  have counts : ∀ category severity,
      countOf category severity first = countOf category severity second := by
    intro category severity
    rw [countOf, countOf, permuted.countP_eq]
  have totals : ∀ category, Survey.countOf category first = Survey.countOf category second := by
    intro category
    rw [Survey.countOf, Survey.countOf, permuted.countP_eq]
  unfold summaryOf
  rw [counts, counts, counts, counts, totals]

theorem issuesOf_perm (permuted : (distinct first).Perm (distinct second)) :
    (issuesOf first).Perm (issuesOf second) := by
  rw [issuesOf, issuesOf, withScore_perm permuted]
  exact permuted.map _

end

section

variable {first second : List ScoredFinding}

/-- The score of a repository is given by the number of its issues and a sum. -/
theorem ofRepository_perm (permuted : first.Perm second) (size trend : Json) :
    Score.ofRepository (.arr (first.map ScoredFinding.toJson)) size trend =
      Score.ofRepository (.arr (second.map ScoredFinding.toJson)) size trend := by
  apply Score.ofRepository_congr
  · rw [length_map, length_map, permuted.length_eq]
  · rw [Score.total_scores, Score.total_scores, (permuted.map _).sum_eq]

/-- When no identifier is repeated, the score of a finding is that of the issue it stands for. -/
theorem scoreOf?_eq_some {issues : List ScoredFinding}
    (unique : (issues.map fun issue => issue.finding.id).Nodup) {finding : Finding} {score : Int} :
    scoreOf? issues finding = some score ↔
      ∃ issue ∈ issues, issue.finding = finding ∧ issue.score = score := by
  rw [scoreOf?, Option.map_eq_some_iff]
  constructor
  · rintro ⟨issue, found, scored⟩
    have named := find?_some found
    rw [beq_iff_eq] at named
    exact ⟨issue, mem_of_find?_eq_some found, named, scored⟩
  · rintro ⟨issue, member, named, scored⟩
    cases found : issues.find? fun issue => issue.finding == finding with
    | none =>
        have absent := find?_eq_none.mp found issue member
        rw [beq_iff_eq] at absent
        exact absurd named absent
    | some other =>
        have same := find?_some found
        rw [beq_iff_eq] at same
        have equal : other = issue := inj_on_of_nodup_map unique
          (mem_of_find?_eq_some found) member (congrArg Finding.id (same.trans named.symm))
        exact ⟨other, rfl, equal ▸ scored⟩

theorem scoreOf?_perm (unique : (first.map fun issue => issue.finding.id).Nodup)
    (permuted : first.Perm second) : scoreOf? first = scoreOf? second := by
  funext finding
  apply Option.ext
  intro score
  rw [scoreOf?_eq_some unique, scoreOf?_eq_some ((permuted.map _).nodup_iff.mp unique)]
  simp only [permuted.mem_iff]

/-- A report looks at issues only for the scores of its warnings. -/
theorem scoredReport_congr (scores : scoreOf? first = scoreOf? second) :
    scoredReport first = scoredReport second := by
  have warnings : scoredWarnings first = scoredWarnings second := by
    funext warnings
    induction warnings with
    | nil => rfl
    | cons warning rest ih => rw [scoredWarnings, scoredWarnings, ih, scores]
  funext report
  cases report with
  | python functions classes todos held digests => rw [scoredReport, scoredReport, warnings]
  | script functions todos suspicions digests => rfl

end

/-! ## The whole -/

/-- The summary of an analysis is that of its issues. -/
theorem summary_of_ofRepository {request : Request} {files : Files} {path : String}
    {languages : Json} {isIndexed : Bool} {analysis : Analysis}
    (done : ofRepository request files path languages isIndexed = .ok analysis) :
    analysis.summary = summaryOf (analysis.issues.map ScoredFinding.finding) := by
  rcases Outcome.exists_of_bind done with ⟨_, _, done⟩
  rcases Outcome.exists_of_bind done with ⟨_, _, done⟩
  rcases Outcome.exists_of_bind done with ⟨collected, _, done⟩
  rcases Outcome.exists_of_bind done with ⟨issues, scores, done⟩
  rcases Outcome.exists_of_bind done with ⟨_, _, done⟩
  rw [mapM_scored] at scores
  cases scores
  cases done
  rw [map_finding_withScore]

/-- The analyses of a directory for two lists with the same languages have results.  Their issues
are the same up to order, with the same scores, and so are the reports on files; the score of the
repository and the summary are equal. -/
theorem languages_in_any_order (request : Request) (files : Files) (path : String)
    (languages others : Json) (isIndexed : Bool) (root : Files.Path)
    (requested another : List RequestedLanguage)
    (rooted : ∃ listing, files.root = .dir listing) (located : rootOf files path = .ok root)
    (listed : RequestedLanguage.list languages = .ok requested)
    (otherListed : RequestedLanguage.list others = .ok another)
    (same : ∀ language, language ∈ requested ↔ language ∈ another) :
    ∃ one other, ofRepository request files path languages isIndexed = .ok one ∧
      ofRepository request files path others isIndexed = .ok other ∧
      one.issues.Perm other.issues ∧ one.overallScore = other.overallScore ∧
      one.summary = other.summary ∧ one.files.Perm other.files := by
  have isRepository := isDir_of_rootOf rooted located
  rcases ofRepository_eq request isIndexed rooted located listed with
    ⟨one, firstDone, firstIssues, firstFiles, firstScore, _⟩
  rcases ofRepository_eq request isIndexed rooted located otherListed with
    ⟨other, secondDone, secondIssues, secondFiles, secondScore, _⟩
  have issues : one.issues.Perm other.issues := by
    rw [firstIssues, secondIssues]
    exact issuesOf_perm (distinct_emitted_perm isRepository same)
  have unique : (one.issues.map fun issue => issue.finding.id).Nodup := by
    have ids : (one.issues.map fun issue => issue.finding.id) =
        (one.issues.map ScoredFinding.finding).map Finding.id := by
      rw [map_map]
      rfl
    rw [ids, firstIssues, issuesOf, map_finding_withScore]
    exact nodup_map_id_distinct _
  have reports : one.files.Perm other.files := by
    rw [firstFiles, secondFiles, scoredReport_congr (scoreOf?_perm unique issues)]
    exact (reported_perm isRepository same).map _
  refine ⟨one, other, firstDone, secondDone, issues, ?_, ?_, reports⟩
  · rw [ofRepository_perm issues, reports.length_eq, secondScore] at firstScore
    exact (Except.ok.inj firstScore).symm
  · rw [summary_of_ofRepository firstDone, summary_of_ofRepository secondDone]
    exact summaryOf_perm (issues.map _)

/-- A package and a script, with the languages in two orders and one of them repeated. -/
theorem twoLanguageFiles_in_any_order :
    (∀ language : RequestedLanguage,
        language ∈ [.python, .script, .unknown "cobol", .script] ↔
          language ∈ [.unknown "cobol", .script, .python]) ∧
      ∃ one other,
        ofRepository plainRequest twoLanguageFiles "/"
          (.texts ["py", "js", "cobol", "js"]) false = .ok one ∧
        ofRepository plainRequest twoLanguageFiles "/" (.texts ["cobol", "js", "py"]) false =
          .ok other ∧
        one.issues.Perm other.issues ∧ one.overallScore = other.overallScore ∧
        one.summary = other.summary ∧ one.files.Perm other.files := by
  have same : ∀ language : RequestedLanguage,
      language ∈ [.python, .script, .unknown "cobol", .script] ↔
        language ∈ [.unknown "cobol", .script, .python] := by
    intro language
    simp only [mem_cons, not_mem_nil, or_false]
    tauto
  exact ⟨same, languages_in_any_order plainRequest twoLanguageFiles "/" _ _ false [] _ _ ⟨_, rfl⟩
    (rootOf_slash _ ⟨_, rfl⟩) rfl rfl same⟩

end Analysis
end CodeQuality
