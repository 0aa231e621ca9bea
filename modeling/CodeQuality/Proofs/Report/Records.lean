import CodeQuality.Proofs.Report.Fidelity

namespace CodeQuality

/-!
What is in the record of an analysis or of a report.

Whoever reads such a record sees neither findings nor issues, only members under keys.
Two forms are around, since a report writes every issue anew.  Both describe the same
findings in the same order; they differ in what they say of a file where there is none.
-/

namespace Analysis

open Survey

/-! ## Looking back from an analysis -/

section

variable {reading : Reading} {files : Files} {root : Files.Path}

/-- What a survey finds comes about in one of the ten ways, also where there is no directory. -/
theorem emission_of_mem_surveyed {language : RequestedLanguage} {finding : Finding}
    (member : finding ∈ (surveyed reading files root language).2) :
    ∃ kind, Emission reading files root language kind finding := by
  cases language with
  | python =>
      have isRepository : files.isDir root = true := by
        rw [surveyed, Python.surveyAt] at member
        apply Files.isDir_eq_true.mpr
        cases found : files.stat root with
        | error cause =>
            rw [found] at member
            cases member
        | ok entry =>
            cases entry with
            | dir listing => exact ⟨listing, rfl⟩
            | _ =>
                rw [found] at member
                cases member
      exact (mem_surveyed isRepository).mp member
  | script =>
      have parts : finding ∈ fileFindings reading files root .script ++
          missingTests files root .script := member
      rcases List.mem_append.mp parts with inFile | missing
      · rcases mem_fileFindings.mp inFile with ⟨kind, emission, _⟩
        exact ⟨kind, emission⟩
      · rcases (mem_missingTests reading).mp missing with ⟨kind, emission, _⟩
        exact ⟨kind, emission⟩
  | unknown text =>
      cases List.mem_singleton.mp member
      exact ⟨_, .language⟩

theorem of_collect {requested : List RequestedLanguage} {collected gathered : Collected}
    (done : collect reading files root collected requested = .ok gathered) :
    gathered.findings = collected.findings ++ emitted reading files root requested := by
  induction requested generalizing collected with
  | nil =>
      cases done
      exact (List.append_nil _).symm
  | cons language rest ih =>
      rw [emitted_cons, ← List.append_assoc]
      cases language with
      | python =>
          rw [collect] at done
          rcases Outcome.exists_of_bind done with ⟨survey, found, done⟩
          rw [surveyed, found]
          exact ih done
      | script => exact ih done
      | unknown text => exact ih done

end

variable {files : Files}

/-- An analysis that has come to its end was made of what its surveys found. -/
theorem of_ofRepository {request : Request} {path : String} {languages : Json} {isIndexed : Bool}
    {analysis : Analysis}
    (done : ofRepository request files path languages isIndexed = .ok analysis) :
    ∃ root requested, rootOf files path = .ok root ∧
      analysis.issues = issuesOf (emitted request.reading files root requested) ∧
      Score.ofRepository (.arr (analysis.issues.map ScoredFinding.toJson))
        (.nat analysis.files.length) Score.neutralWeight = .ok analysis.overallScore := by
  unfold ofRepository at done
  rcases Outcome.exists_of_bind done with ⟨root, located, done⟩
  rcases Outcome.exists_of_bind done with ⟨requested, _, done⟩
  rcases Outcome.exists_of_bind done with ⟨collected, gathered, done⟩
  rcases Outcome.exists_of_bind done with ⟨issues, scores, done⟩
  rcases Outcome.exists_of_bind done with ⟨overall, whole, done⟩
  have findings : collected.findings = emitted request.reading files root requested :=
    of_collect gathered
  rw [mapM_scored, findings] at scores
  cases scores
  cases done
  refine ⟨root, requested, located, rfl, ?_⟩
  rw [List.length_map]
  exact whole

/-- What is known of the findings of an analysis: no two have one identifier, and each comes about
in one of the ten ways. -/
structure Sourced (reading : Reading) (files : Files) (root : Files.Path)
    (findings : List Finding) : Prop where
  unique : (findings.map Finding.id).Nodup
  emission : ∀ finding ∈ findings, ∃ language kind,
    Emission reading files root language kind finding

theorem sourced_distinct_emitted (reading : Reading) (files : Files) (root : Files.Path)
    (requested : List RequestedLanguage) :
    Sourced reading files root (distinct (emitted reading files root requested)) where
  unique := nodup_map_id_distinct _
  emission := by
    intro finding member
    have found := ((mem_distinct _ finding).mp member).mem
    rw [emitted] at found
    rcases List.mem_flatMap.mp found with ⟨language, _, inside⟩
    exact ⟨language, emission_of_mem_surveyed inside⟩

/-- The issues of an analysis come from surveys of the directory that it is about. -/
theorem sourced_issues {request : Request} {path : String} {languages : Json} {isIndexed : Bool}
    {analysis : Analysis}
    (done : ofRepository request files path languages isIndexed = .ok analysis) :
    ∃ root, rootOf files path = .ok root ∧
      Sourced request.reading files root (analysis.issues.map ScoredFinding.finding) := by
  rcases of_ofRepository done with ⟨root, requested, located, issues, _⟩
  refine ⟨root, located, ?_⟩
  rw [issues, issuesOf, map_finding_withScore]
  exact sourced_distinct_emitted request.reading files root requested

theorem Sourced.named {reading : Reading} {root : Files.Path} {findings : List Finding}
    (sourced : Sourced reading files root findings) : Named findings := by
  intro finding member file placed
  rcases sourced.emission finding member with ⟨_, _, emission⟩
  exact emission.file_ne_empty placed

end Analysis

namespace Report

/-! ## Records of issues -/

/-- A record says what a finding says: under the keys that every issue has, and under those that
only an issue with a place has.  It is given what there is for a file where there is none. -/
structure Describes (absent : Option Json) (record : Json) (finding : Finding) : Prop where
  isRecord : ∃ members, record = .obj members
  id : record.get? "id" = some (.str finding.id)
  category : record.get? "category" = some (.str finding.category.name)
  severity : record.get? "severity" = some (.str finding.severity.name)
  placed : ∀ details, finding.details = some details →
    record.get? "file" = some (.str details.file) ∧
      record.get? "suggested_fix" = some (.str details.suggestedFix)
  placeless : finding.details = none → record.get? "file" = absent

theorem describes_scored (scored : ScoredFinding) :
    Describes none scored.toJson scored.finding := by
  rcases get?_scored scored with ⟨id, category, severity, _, _, file, _, _⟩
  refine ⟨⟨_, rfl⟩, id, category, severity, ?_, ?_⟩
  · intro details present
    rw [present] at file
    refine ⟨file, ?_⟩
    simp [ScoredFinding.toJson, Finding.members, present, Json.get?, Json.lookup?]
  · intro absent
    rw [absent] at file
    exact file

theorem describes_issue {issue : Issue} {scored : ScoredFinding}
    (same : Issue.ofScored scored = issue.plain) :
    Describes (some .null) issue.toJson scored.finding := by
  rcases get?_toJson issue with ⟨id, category, severity, _, _, file, _, _⟩
  have fix : issue.toJson.get? "suggested_fix" = some issue.suggestedFix := by
    simp [Issue.toJson, Json.get?, Json.lookup?]
  have whole : issue = { Issue.ofScored scored with explanation := issue.explanation } := by
    rw [same]
    rfl
  rw [whole] at id category severity file fix ⊢
  refine ⟨⟨_, rfl⟩, id, category, severity, ?_, ?_⟩
  · intro details present
    simp only [Issue.ofScored, present] at file fix ⊢
    exact ⟨file, fix⟩
  · intro absent
    simp only [Issue.ofScored, absent] at file ⊢
    exact file

theorem Describes.member {absent : Option Json} {record : Json} {finding : Finding}
    (describes : Describes absent record finding) (key : String) (other : Json) :
    record.member key other = .ok ((record.get? key).getD other) := by
  rcases describes.isRecord with ⟨members, rfl⟩
  rfl

theorem exists_describes {absent : Option Json} {records : List Json} {findings : List Finding}
    (describe : List.Forall₂ (Describes absent) records findings) {record : Json}
    (member : record ∈ records) : ∃ finding ∈ findings, Describes absent record finding := by
  induction describe with
  | nil => cases member
  | cons describes _ ih =>
      rcases List.mem_cons.mp member with rfl | below
      · exact ⟨_, List.mem_cons_self, describes⟩
      · rcases ih below with ⟨finding, inside, found⟩
        exact ⟨finding, List.mem_cons_of_mem _ inside, found⟩

/-! ## Records of analyses and reports -/

/-- A record with members that lists issues, one for each of some findings. -/
structure Lists (absent : Option Json) (report : Json) (findings : List Finding) : Prop where
  isRecord : ∃ first rest, report = .obj (first :: rest)
  issues : ∃ records, report.get? "issues" = some (.arr records) ∧
    List.Forall₂ (Describes absent) records findings

/-- Reading the issues of a record gives what it lists. -/
theorem member_issues {report : Json} {records : List Json}
    (isRecord : ∃ first rest, report = .obj (first :: rest))
    (listed : report.get? "issues" = some (.arr records)) :
    report.member "issues" (.arr []) = .ok (.arr records) := by
  rcases isRecord with ⟨first, rest, rfl⟩
  rw [Json.get?] at listed
  rw [Json.member, listed]
  rfl

theorem lists_analysis (analysis : Analysis) :
    Lists none analysis.toJson (analysis.issues.map ScoredFinding.finding) where
  isRecord := ⟨_, _, rfl⟩
  issues := by
    rcases lookup_analysis analysis with ⟨members, record, listed, _⟩
    refine ⟨_, (congrArg (Json.get? · "issues") record).trans listed, ?_⟩
    rw [List.forall₂_map_left_iff, List.forall₂_map_right_iff]
    apply List.forall₂_same.mpr
    intro scored _
    exact describes_scored scored

section

variable {request : Analysis.Request} {files : Files} {path : String} {languages : Json}
  {isIndexed : Bool} {analysis : Analysis}
  (done : Analysis.ofRepository request files path languages isIndexed = .ok analysis)
  (hasAdvisor : Bool) (environment : Environment) (now : Moment) (world : World)

include done

/-- The report on an analysis is made of the issues of the analysis, which may have got
explanations. -/
theorem generate_analysis :
    ∃ parts issues,
      ((generate hasAdvisor environment now analysis.toJson).run.run world).1 =
        .ok (parts.record issues) ∧
      partsOf now analysis.toJson issues (Survey.filesJson analysis.files) analysis.overallScore =
        .ok parts ∧
      List.Forall₂ (fun issue scored => Issue.ofScored scored = issue.plain) issues
        analysis.issues := by
  rcases Analysis.of_ofRepository done with ⟨root, requested, _, issues, overall⟩
  have named := (Analysis.sourced_distinct_emitted request.reading files root requested).named
  have ready := prepared_toJson issues named overall
  rcases generate_of_ok ready hasAdvisor environment now world with ⟨result, explained, ran⟩
  rcases partsOf_toJson now analysis result analysis.overallScore with ⟨parts, made, _⟩
  refine ⟨parts, result, ?_, made, ?_⟩
  · rw [ran, finished, made]
    rfl
  · have plain : result.map Issue.plain = analysis.issues.map Issue.ofScored := by
      rw [explained.same, List.map_map]
      rfl
    rw [← List.forall₂_eq_eq_eq, List.forall₂_map_left_iff, List.forall₂_map_right_iff] at plain
    exact plain.imp fun _ _ same => same.symm

/-- The report on an analysis is there, and it lists the issues of the analysis. -/
theorem lists_generated :
    ∃ report, ((generate hasAdvisor environment now analysis.toJson).run.run world).1 =
        .ok report ∧
      Lists (some .null) report (analysis.issues.map ScoredFinding.finding) := by
  rcases generate_analysis done hasAdvisor environment now world with
    ⟨parts, issues, ran, _, plain⟩
  refine ⟨parts.record issues, ran, ⟨_, _, rfl⟩, _, get?_issues_record parts issues, ?_⟩
  rw [List.forall₂_map_left_iff, List.forall₂_map_right_iff]
  exact plain.imp fun _ _ => describes_issue

end

end Report
end CodeQuality
