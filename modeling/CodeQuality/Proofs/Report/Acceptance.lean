import CodeQuality.Proofs.Answers.FileQuestions
import CodeQuality.Proofs.WebService.Questions

namespace CodeQuality

/-!
Reports and the rules for reports.

The rules want a text as the file of an issue and a list of texts as its evidence.  A
finding has one text as evidence, and a finding about the request itself has no file.
So every issue breaks exactly one rule, and a report is accepted if and only if there
is nothing to report.
-/

/-- A violation seen from one step further away. -/
def Violation.under (step : FieldStep) (violation : Violation) : Violation :=
  { violation with location := step :: violation.location }

namespace Analysis

/-- Of findings that are put together something remains. -/
theorem distinct_eq_nil_iff {findings : List Finding} : distinct findings = [] ↔ findings = [] := by
  constructor
  · intro none
    cases findings with
    | nil => rfl
    | cons first rest =>
        rcases exists_isLast (List.mem_cons_self : first ∈ first :: rest) with ⟨last, isLast, _⟩
        have kept := (mem_distinct _ last).mpr isLast
        rw [none] at kept
        cases kept
  · rintro rfl
    rfl

theorem issuesOf_eq_nil_iff {findings : List Finding} : issuesOf findings = [] ↔ findings = [] := by
  rw [issuesOf, List.map_eq_nil_iff, distinct_eq_nil_iff]

end Analysis

namespace Rule

/-! ## Lists of which nothing is accepted -/

/-- If every item breaks one rule, the list breaks as many as it has items, in their order. -/
theorem itemsFrom_of_forall₂ {rule : Rule} {items : List Json} {violations : List Violation}
    (refused : List.Forall₂ (fun item violation => rule item = .error (.invalid [violation]))
      items violations) (present : violations ≠ []) (position : Nat) :
    itemsFrom rule position items = .error (.invalid (violations.mapIdx
      fun offset violation => violation.under (.index (position + offset)))) := by
  induction refused generalizing position with
  | nil => exact absurd rfl present
  | @cons item violation items violations here below ih =>
      rw [itemsFrom, here, List.mapIdx_cons]
      cases violations with
      | nil =>
          cases below
          rfl
      | cons next rest =>
          rw [ih (List.cons_ne_nil next rest) (position + 1)]
          simp only [Nat.add_right_comm position 1, Nat.add_assoc position]
          rfl

end Rule

namespace Report

open Rule Analysis Schema
open Analysis (Named)

/-! ## One issue -/

/-- The rule that an issue breaks: the one for its evidence, or the one for its file when it has
none. -/
def breach (scored : ScoredFinding) : Violation :=
  if scored.finding.details.isSome then
    ⟨[.name "evidence"], "value is not a valid list", "type_error.list"⟩
  else ⟨[.name "file"], "none is not an allowed value", "type_error.none.not_allowed"⟩

theorem orNull_whole_ofNat? (line : Option Nat) :
    whole.orNull (.ofNat? line) = .ok (.ofNat? line) := by
  cases line with
  | none => rfl
  | some number => rfl

/-- An issue breaks no rule but one, whether it is explained or not. -/
theorem record_issueFields {issue : Issue} {scored : ScoredFinding}
    (same : Issue.ofScored scored = issue.plain) :
    record issueFields issue.toJson = .error (.invalid [breach scored]) := by
  have explained : issue = { Issue.ofScored scored with explanation := issue.explanation } := by
    rw [same]
    rfl
  rw [explained]
  cases details : scored.finding.details with
  | none =>
      simp only [record, members?, Issue.toJson, List.cons_append, issueFields, fields,
        Field.accept, required, Rule.optional, Json.lookup?, String.reduceEq, ↓reduceIte,
        Issue.ofScored, breach, details, Option.map_none, Option.getD_none, Option.isSome_none]
      rfl
  | some place =>
      simp only [record, members?, Issue.toJson, List.cons_append, issueFields, fields,
        Field.accept, required, Rule.optional, Json.lookup?, String.reduceEq, ↓reduceIte,
        Issue.ofScored, breach, details, Option.map_some, Option.getD_some, Option.isSome_some,
        orNull_whole_ofNat?]
      rfl

/-! ## The whole report -/

/-- The rules that the issues of a report break. -/
def breaches (issues : List ScoredFinding) : List Violation :=
  ((issues.map breach).mapIdx fun position => (·.under (.index position))).map
    (·.under (.name "issues"))

/-- What a report says about an analysis is accepted. -/
theorem accept_about {now : Moment} {analysis : Analysis} {issues : List Issue} {score : Int}
    {parts : Parts} (made :
      partsOf now analysis.toJson issues (Survey.filesJson analysis.files) score = .ok parts) :
    record metaFields parts.about = .ok (.obj
      [("path", .str analysis.path), ("analyzed_at", .str analysis.analyzedAt)]) := by
  rw [partsOf, size_filesJson] at made
  cases made
  rfl

theorem orNull_texts (items : List String) :
    (listOf text).orNull (.texts items) = .ok (.texts items) := by
  rw [Json.texts, orNull, listOf, itemsFrom_texts]
  · rfl
  · exact Json.noConfusion

section

variable {parts : Parts} {about : Json} {issues : List Issue}
  (described : record metaFields parts.about = .ok about)

include described

/-- Beside its issues nothing of a report is refused. -/
theorem body_record :
    body reportFields (parts.record issues) = (do
      let items ← (listOf (record issueFields) (.arr (issues.map Issue.toJson))).mapError
        (Fault.within (.name "issues"))
      pure (.obj [("meta", about), ("summary", .str parts.summary),
        ("overall_score", .int parts.overallScore), ("issues", items),
        ("recommendations", .texts parts.recommendations)])) := by
  simp only [body, Parts.record, Parts.members, List.cons_append, reportFields, fields,
    Field.accept, required, Rule.optional, Json.lookup?, String.reduceEq, ↓reduceIte, described,
    orNull_texts]
  cases listOf (record issueFields) (.arr (issues.map Issue.toJson)) with
  | ok items => rfl
  | error fault => cases fault <;> rfl

/-- A report with issues is refused for each of them. -/
theorem body_record_of_breaches {scored : List ScoredFinding}
    (plain : List.Forall₂ (fun issue scored => Issue.ofScored scored = issue.plain) issues scored)
    (present : scored ≠ []) :
    body reportFields (parts.record issues) = .error (.invalid (breaches scored)) := by
  have refused : List.Forall₂
      (fun item violation => record issueFields item = .error (.invalid [violation]))
      (issues.map Issue.toJson) (scored.map breach) := by
    rw [List.forall₂_map_left_iff, List.forall₂_map_right_iff]
    exact plain.imp fun _ _ => record_issueFields
  have some : scored.map breach ≠ [] := List.map_eq_nil_iff.not.mpr present
  rw [body_record described, listOf, itemsFrom_of_forall₂ refused some, breaches]
  simp only [Nat.zero_add]
  rfl

end

/-- What the rules make of the report on an analysis. -/
theorem body_generated {request : Request} {files : Files} {path : String}
    {languages : Json} {isIndexed : Bool} {analysis : Analysis}
    (done : ofRepository request files path languages isIndexed = .ok analysis)
    (hasAdvisor : Bool) (environment : Environment) (now : Moment) (world : World) :
    ∃ report,
      ((generate hasAdvisor environment now analysis.toJson).run.run world).1 = .ok report ∧
      (analysis.issues = [] → ∃ accepted, body reportFields report = .ok accepted) ∧
      (analysis.issues ≠ [] →
        body reportFields report = .error (.invalid (breaches analysis.issues))) := by
  rcases generate_analysis done hasAdvisor environment now world with
    ⟨parts, issues, ran, made, plain⟩
  refine ⟨parts.record issues, ran, ?_, body_record_of_breaches (accept_about made) plain⟩
  intro none
  rw [none] at plain
  cases plain
  rw [body_record (accept_about made)]
  exact ⟨_, rfl⟩

/-- The analysis of a directory has a result, and so has the report on it, whatever becomes of the
advisor.  The report fits the rules for reports if and only if nothing was found.  Otherwise it
breaks one rule for each of its issues and no other one. -/
theorem report_is_accepted_iff (request : Request) (files : Files) (path : String)
    (languages : Json) (isIndexed : Bool) (root : Files.Path) (requested : List RequestedLanguage)
    (rooted : ∃ listing, files.root = .dir listing) (located : rootOf files path = .ok root)
    (listed : RequestedLanguage.list languages = .ok requested) (hasAdvisor : Bool)
    (environment : Environment) (now : Moment) (world : World) :
    ∃ analysis report,
      ofRepository request files path languages isIndexed = .ok analysis ∧
      ((generate hasAdvisor environment now analysis.toJson).run.run world).1 = .ok report ∧
      ((∃ accepted, body reportFields report = .ok accepted) ↔
        emitted request.reading files root requested = []) ∧
      (analysis.issues ≠ [] →
        body reportFields report = .error (.invalid (breaches analysis.issues))) := by
  rcases ofRepository_eq request isIndexed rooted located listed with
    ⟨analysis, done, issues, _⟩
  rcases body_generated done hasAdvisor environment now world with
    ⟨report, ran, accepted, refused⟩
  refine ⟨analysis, report, done, ran, ?_, refused⟩
  rw [← issuesOf_eq_nil_iff, ← issues]
  constructor
  · rintro ⟨value, fits⟩
    by_contra present
    rw [refused present] at fits
    cases fits
  · exact accepted

/-- A note, and a language that is not known, with an advisor whose language model fails. -/
theorem notedFile_judged :
    RequestedLanguage.list (.texts ["py", "cobol"]) = .ok [.python, .unknown "cobol"] ∧
      ∃ analysis report,
        ofRepository plainRequest (Answers.notedFile "app.py") "/"
          (.texts ["py", "cobol"]) false = .ok analysis ∧
        ((generate true [("USE_LLM", "true"), ("LLM_PROVIDER", "gemini")] plainRequest.now
          analysis.toJson).run.run failingWorld).1 = .ok report ∧
        ((∃ accepted, body reportFields report = .ok accepted) ↔
          emitted plainRequest.reading (Answers.notedFile "app.py") []
            [.python, .unknown "cobol"] = []) ∧
        (analysis.issues ≠ [] →
          body reportFields report = .error (.invalid (breaches analysis.issues))) := by
  have listed : RequestedLanguage.list (.texts ["py", "cobol"]) =
      .ok [.python, .unknown "cobol"] := by
    rfl
  exact ⟨listed, report_is_accepted_iff plainRequest (Answers.notedFile "app.py") "/"
    (.texts ["py", "cobol"]) false [] _ ⟨_, rfl⟩ (rootOf_slash _ ⟨_, rfl⟩) listed true _ _
    failingWorld⟩

/-- The report on one file with a note in it is refused, since its evidence is a text. -/
theorem notedFile_refused :
    ∃ analysis report violations,
      ofRepository plainRequest (Answers.notedFile "app.py") "/" (.texts ["py"])
        false = .ok analysis ∧
      ((generate true [] plainRequest.now analysis.toJson).run.run failingWorld).1 =
        .ok report ∧
      body reportFields report = .error (.invalid violations) ∧
      ⟨[.name "issues", .index 0, .name "evidence"], "value is not a valid list",
        "type_error.list"⟩ ∈ violations := by
  rcases @Answers.exists_analysis_notedFile "app.py" (by decide) (by decide) with
    ⟨analysis, done, present, only⟩
  rcases body_generated done true [] plainRequest.now failingWorld with
    ⟨report, ran, _, refused⟩
  refine ⟨analysis, report, _, done, ran, refused present, ?_⟩
  cases issues : analysis.issues with
  | nil => exact absurd issues present
  | cons issue rest =>
      have placed := only issue (issues ▸ List.mem_cons_self)
      have detailed : issue.finding.details.isSome := by
        rw [← Option.isSome_map, ← Finding.file?, placed]
        rfl
      rw [breaches, List.map_cons, List.mapIdx_cons, breach, if_pos detailed]
      exact List.mem_cons_self

end Report
end CodeQuality
