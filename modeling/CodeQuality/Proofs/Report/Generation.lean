import CodeQuality.Proofs.Action
import CodeQuality.Proofs.Outcome
import CodeQuality.Proofs.Ranking
import CodeQuality.Report

namespace CodeQuality

open Report.Issue Json Outcome CodeQuality.Action

namespace Report

/-!
How a report is put together.

A report is prepared, its highest issues are explained, and it is finished.  Only the
explanations use the world, and they do not fail: whatever happens to the advisor, the
same issues go on in the same order.  From then on only the record of the analysis can
be at fault; writing the Markdown text never is.
-/

/-! ## The text -/

/-- What is read from the record of an issue, with an explanation or without one. -/
theorem get?_toJson (issue : Issue) :
    issue.toJson.get? "id" = some issue.id ∧ issue.toJson.get? "category" = some issue.category ∧
      issue.toJson.get? "severity" = some (.str issue.severity) ∧
      issue.toJson.get? "message" = some issue.message ∧
      issue.toJson.get? "score" = some (.int issue.score) ∧
      issue.toJson.get? "file" = some issue.file ∧ issue.toJson.get? "lineno" = some issue.line ∧
      issue.toJson.get? "evidence" = some issue.evidence := by
  simp [toJson, get?, lookup?]

/-- The row that shows an issue. -/
def Issue.row (issue : Issue) : String :=
  let location := if issue.file.isTruthy then issue.file.display ++ ":" ++ issue.line.display
    else "N/A"
  "| " ++ issue.id.display ++ " | " ++ issue.severity ++ " | " ++ location ++ " | " ++
    issue.message.display ++ " |"

theorem row_toJson (issue : Issue) : row issue.toJson = .ok issue.row := by
  rcases get?_toJson issue with ⟨_, _, _, _, _, file, line, _⟩
  have message : issue.toJson.member "message" (.str "") = .ok issue.message := by
    simp [toJson, member, lookup?]
  have id : issue.toJson.element "id" = .ok issue.id := by
    simp [toJson, element, lookup?]
  have severity : issue.toJson.element "severity" = .ok (.str issue.severity) := by
    simp [toJson, element, lookup?]
  unfold row location Issue.row
  rw [message, id, severity, file, line]
  rfl

/-- The records of issues, sorted by their scores and cut, are the records of the first issues by
score, however the scores are read. -/
theorem leading_toJson {read : Json → Outcome Json}
    (found : ∀ issue : Issue, read issue.toJson = .ok (.int issue.score)) (issues : List Issue)
    (count : Nat) :
    (do
      let keyed ← (issues.map toJson).mapM fun issue => do pure (issue, ← read issue)
      let sorted ← Sorting.descendingBy (fun entry : Json × Json => entry.2) keyed
      pure ((sorted.take count).map Prod.fst) : Outcome (List Json)) =
      .ok (((byScore issues).take count).map toJson) := by
  let keyed : Issue → Json × Json := fun issue => (issue.toJson, .int issue.score)
  have scores : (issues.map toJson).mapM
      (fun issue => do pure (issue, ← read issue)) =
      (.ok (issues.map keyed) : Outcome (List (Json × Json))) := by
    rw [List.mapM_map]
    apply mapM_eq_ok
    intro issue _
    rw [Function.comp_apply, found]
    rfl
  have sorted : Sorting.descendingBy (·.2) (issues.map keyed) =
      .ok ((Sorting.ranked score issues).map keyed) :=
    Sorting.descending_map
      (fun first second => Sorting.isBefore_int first.score second.score) issues
  have back : (((Sorting.ranked score issues).map keyed).take count).map Prod.fst =
      ((byScore issues).take count).map toJson := by
    rw [← List.map_take, List.map_map]
    rfl
  rw [scores, ← back]
  simp only [bind, Except.bind, sorted]
  rfl

theorem highest_toJson (issues : List Issue) :
    highest (issues.map toJson) = .ok (((byScore issues).take shownIssues).map toJson) := by
  refine leading_toJson (fun issue => ?_) issues shownIssues
  simp [toJson, element, lookup?]

/-- The Markdown text of a report with given parts and issues. -/
def Parts.text (parts : Parts) (issues : List Issue) : String :=
  Text.joinLines <|
    ["# Code Quality Report\n", "**Overall Score:** " ++ (int parts.overallScore).display ++
      "/100\n", "## Top Issues\n", "| ID | Severity | Location | Message |",
      "|----|----------|----------|---------|"] ++
      ((byScore issues).take shownIssues).map Issue.row ++ ["\n## Recommendations\n"] ++
      parts.recommendations.map fun recommendation => "- " ++ recommendation

theorem markdown_members (parts : Parts) (issues : List Issue) :
    markdown (.obj (parts.members issues)) = .ok (parts.text issues) := by
  have score : (obj (parts.members issues)).member "overall_score" (.str "?") =
      .ok (.int parts.overallScore) := by
    simp [Parts.members, member, lookup?]
  have shown : (obj (parts.members issues)).member "issues" (.arr []) =
      .ok (.arr (issues.map toJson)) := by
    simp [Parts.members, member, lookup?]
  have advice : (obj (parts.members issues)).member "recommendations" (.arr []) =
      .ok (.arr (parts.recommendations.map .str)) := by
    simp [Parts.members, member, lookup?, texts]
  have rows : (((byScore issues).take shownIssues).map toJson).mapM row =
      .ok (((byScore issues).take shownIssues).map Issue.row) := by
    rw [List.mapM_map]
    exact mapM_eq_ok fun issue _ => row_toJson issue
  have lines : (parts.recommendations.map str).map
      (fun recommendation => "- " ++ recommendation.display) =
      parts.recommendations.map fun recommendation => "- " ++ recommendation :=
    List.map_map
  unfold markdown Parts.text
  rw [score, shown, advice, ← lines]
  simp only [bind, Except.bind, elements, highest_toJson, rows]
  rfl

/-! ## Explanations -/

/-- An issue without its explanation. -/
def Issue.plain (issue : Issue) : Issue := { issue with explanation := none }

/-- Issues that differ from given ones by explanations alone, which no issue has whose position is
not among given ones. -/
structure ExplainedAt (positions : List Nat) (issues result : List Issue) : Prop where
  same : result.map plain = issues.map plain
  only : ∀ position issue, result[position]? = some issue → issue.explanation.isSome →
    position ∈ positions

variable {issues : List Issue}

theorem explainedAt_of_plain (positions : List Nat)
    (plain : ∀ issue ∈ issues, issue.explanation = none) : ExplainedAt positions issues issues where
  same := rfl
  only := by
    intro position issue placed present
    rw [plain issue (List.mem_of_getElem? placed)] at present
    cases present

/-- The advisor may fail, the explanation is there. -/
theorem gives_explanationOf (advisor : Advisor) (environment : Environment) (analysis : Json)
    (issue : Issue) : (explanationOf advisor environment analysis issue).Gives fun _ => True := by
  refine (gives_outcome _).bind fun outcome _ => ?_
  cases outcome with
  | error fault => exact gives_pure trivial
  | ok text => exact gives_pure trivial

theorem ExplainedAt.set {done : List Nat} {result : List Issue}
    (before : ExplainedAt done issues result) {position : Nat} {issue : Issue}
    (placed : result[position]? = some issue) (text : Json) :
    ExplainedAt (done ++ [position]) issues
      (result.set position { issue with explanation := some text }) where
  same := by
    have bound : position < result.length := (List.getElem?_eq_some_iff.mp placed).1
    rw [← before.same, List.map_set]
    apply List.ext_getElem?
    intro index
    rw [List.getElem?_set]
    split
    · next here =>
        rw [← here, List.length_map, if_pos bound, List.getElem?_map, placed]
        rfl
    · rfl
  only := by
    intro index other found present
    rw [List.getElem?_set] at found
    split at found
    · next here => exact List.mem_append_right _ (here ▸ List.mem_singleton_self _)
    · exact List.mem_append_left _ (before.only index other found present)

/-- Explaining one more issue changes nothing else. -/
theorem gives_explainAt (advisor : Advisor) (environment : Environment) (analysis : Json)
    {done : List Nat} {result : List Issue} (before : ExplainedAt done issues result)
    (position : Nat) :
    (explainAt advisor environment analysis result position).Gives
      (ExplainedAt (done ++ [position]) issues) := by
  rw [explainAt]
  cases placed : result[position]? with
  | none =>
      refine gives_pure ⟨before.same, fun index issue found present => ?_⟩
      exact List.mem_append_left _ (before.only index issue found present)
  | some issue =>
      refine (gives_explanationOf advisor environment analysis issue).bind fun text _ => ?_
      exact gives_pure (before.set placed text)

/-- With an advisor or without one, and whatever becomes of it, issues come back that only the
highest positions can have explanations at. -/
theorem gives_explained (hasAdvisor : Bool) (environment : Environment) (analysis : Json)
    (plain : ∀ issue ∈ issues, issue.explanation = none) :
    (explained hasAdvisor environment analysis issues).Gives
      (ExplainedAt (highestPositions issues) issues) := by
  have unexplained := explainedAt_of_plain (highestPositions issues) plain
  cases hasAdvisor with
  | false => exact gives_pure unexplained
  | true =>
      refine (gives_outcome (Advisor.fromEnvironment environment)).bind fun outcome _ => ?_
      cases outcome with
      | error fault => exact gives_pure unexplained
      | ok advisor =>
          exact gives_foldlM (fun done => ExplainedAt done issues)
            (fun done result position before =>
              gives_explainAt advisor environment analysis before position)
            (explainedAt_of_plain [] plain) (highestPositions issues)

/-! ## The whole -/

/-- What is known of a report before any issue is explained: its issues, its files and its
score. -/
def prepared (analysis : Json) : Outcome (List Issue × Json × Int) := do
  let records ← (← analysis.member "issues" (.arr [])).elements
  let issues ← issuesOf records
  let files ← analysis.member "files" (.obj [])
  pure (issues, files, ← overallScore issues files)

/-- The record of a report with its Markdown. -/
def Parts.record (parts : Parts) (issues : List Issue) : Json :=
  .obj (parts.members issues ++ [("markdown", .str (parts.text issues))])

/-- The report with given issues, explained or not. -/
def finished (now : Moment) (analysis : Json) (issues : List Issue) (files : Json) (score : Int) :
    Outcome Json :=
  (partsOf now analysis issues files score).map fun parts => parts.record issues

theorem get?_issues_record (parts : Parts) (issues : List Issue) :
    (parts.record issues).get? "issues" = some (.arr (issues.map toJson)) := by
  simp [Parts.record, Parts.members, get?, lookup?]

theorem get?_overallScore_record (parts : Parts) (issues : List Issue) :
    (parts.record issues).get? "overall_score" = some (.int parts.overallScore) := by
  simp [Parts.record, Parts.members, get?, lookup?]

/-- No issue comes with an explanation. -/
theorem explanation_of_issuesOf {records : List Json} (known : issuesOf records = .ok issues) :
    ∀ issue ∈ issues, issue.explanation = none := by
  intro issue member
  rcases exists_of_bind known with ⟨described, first, more⟩
  rcases exists_of_bind more with ⟨counts, _, scored⟩
  rcases exists_of_mem_mapM scored member with ⟨unscored, inside, given⟩
  rcases exists_of_mem_mapM first inside with ⟨record, _, read⟩
  have unexplained : unscored.explanation = none := by
    rcases exists_of_bind read with ⟨_, _, read⟩
    rcases exists_of_bind read with ⟨_, _, read⟩
    rcases exists_of_bind read with ⟨_, _, read⟩
    rcases exists_of_bind read with ⟨_, _, read⟩
    cases read
    rfl
  rcases exists_of_bind given with ⟨_, _, given⟩
  rcases exists_of_bind given with ⟨_, _, given⟩
  cases given
  exact unexplained

theorem generate_eq (hasAdvisor : Bool) (environment : Environment) (now : Moment)
    (analysis : Json) :
    generate hasAdvisor environment now analysis =
      ofOutcome (prepared analysis) >>= fun (issues, files, score) =>
        explained hasAdvisor environment analysis issues >>= fun result =>
          ofOutcome (finished now analysis result files score) := by
  have finishing : ∀ (issues : List Issue) (files : Json) (score : Int),
      finished now analysis issues files score = (do
        let parts ← partsOf now analysis issues files score
        let members := parts.members issues
        pure (.obj (members ++ [("markdown", .str (← markdown (.obj members)))]))) := by
    intro issues files score
    rw [finished]
    cases partsOf now analysis issues files score with
    | error fault => rfl
    | ok parts =>
        simp only [bind, Except.bind, markdown_members]
        rfl
  simp only [finishing]
  rfl

/-- What is at fault before the issues are explained stays at fault. -/
theorem generate_of_error {analysis : Json} {fault : Fault}
    (failed : prepared analysis = .error fault) (hasAdvisor : Bool) (environment : Environment)
    (now : Moment) (world : World) :
    ((generate hasAdvisor environment now analysis).run.run world).1 = .error fault := by
  rw [generate_eq, failed, run_bind_of_error (run_ofOutcome _ world)]

/-- The report on prepared issues is finished with the same issues, of which only the highest can
have got explanations. -/
theorem generate_of_ok {analysis files : Json} {score : Int}
    (ready : prepared analysis = .ok (issues, files, score)) (hasAdvisor : Bool)
    (environment : Environment) (now : Moment) (world : World) :
    ∃ result, ExplainedAt (highestPositions issues) issues result ∧
      ((generate hasAdvisor environment now analysis).run.run world).1 =
        finished now analysis result files score := by
  have plain : ∀ issue ∈ issues, issue.explanation = none := by
    rcases exists_of_bind ready with ⟨_, _, more⟩
    rcases exists_of_bind more with ⟨_, _, more⟩
    rcases exists_of_bind more with ⟨_, known, more⟩
    rcases exists_of_bind more with ⟨_, _, more⟩
    rcases exists_of_bind more with ⟨_, _, more⟩
    cases more
    exact explanation_of_issuesOf known
  rcases gives_explained hasAdvisor environment analysis plain world with
    ⟨result, after, ran, holds⟩
  refine ⟨result, holds, ?_⟩
  rw [generate_eq, ready, run_bind_of_ok (run_ofOutcome _ world),
    run_bind_of_ok ran, run_ofOutcome]

end Report
end CodeQuality
