import CodeQuality.Proofs.Report.Generation

namespace CodeQuality

open Report.Issue

namespace Report

/-!
Explanations interfere with nothing.

Two reports on one analysis may be made in different surroundings: with an advisor or
without one, with other settings, and with a language model that answers otherwise or
fails.  When the explanations are taken out of them, the reports are equal, and if one
cannot be made, neither can the other.  Explanations are found on the three highest
issues only.  Nothing is said here of what an explanation says.
-/

/-! ## Reports without explanations -/

/-- The key of an explanation in the record of an issue. -/
def explanationKey : String := "llm_explanation"

/-- The record of an issue without its explanation. -/
def withoutExplanation : Json → Json
  | .obj members => .obj (members.filter fun member => member.1 ≠ explanationKey)
  | other => other

/-- The record of a report without the explanations of its issues. -/
def withoutExplanations : Json → Json
  | .obj members => .obj (members.map fun (key, value) =>
      match key, value with
      | "issues", .arr issues => (key, .arr (issues.map withoutExplanation))
      | _, _ => (key, value))
  | other => other

theorem withoutExplanation_toJson (issue : Issue) :
    withoutExplanation issue.toJson = issue.plain.toJson := by
  cases present : issue.explanation with
  | none => simp [withoutExplanation, toJson, plain, present, explanationKey]
  | some text => simp [withoutExplanation, toJson, plain, present, explanationKey]

theorem get?_explanationKey (issue : Issue) :
    issue.toJson.get? explanationKey = issue.explanation := by
  cases present : issue.explanation with
  | none => simp [toJson, present, Json.get?, Json.lookup?, explanationKey]
  | some text => simp [toJson, present, Json.get?, Json.lookup?, explanationKey]

/-! ## What does not look at explanations -/

theorem byScore_map_plain (issues : List Issue) :
    byScore (issues.map plain) = (byScore issues).map plain := by
  refine (List.map_mergeSort ?_).symm
  intro first _ second _
  rfl

theorem recommendations_map_plain (issues : List Issue) :
    recommendations (issues.map plain) = recommendations issues := by
  rw [recommendations, byScore_map_plain, ← List.map_take, List.map_map]
  rfl

theorem partsOf_map_plain (now : Moment) (analysis : Json) (issues : List Issue) (files : Json)
    (score : Int) :
    partsOf now analysis (issues.map plain) files score =
      partsOf now analysis issues files score := by
  rw [partsOf, recommendations_map_plain, List.length_map, ← partsOf]

theorem text_map_plain (parts : Parts) (issues : List Issue) :
    parts.text (issues.map plain) = parts.text issues := by
  have rows : ((byScore (issues.map Issue.plain)).take shownIssues).map Issue.row =
      ((byScore issues).take shownIssues).map Issue.row := by
    rw [byScore_map_plain, ← List.map_take, List.map_map]
    rfl
  rw [Parts.text, rows, ← Parts.text]

theorem withoutExplanations_record (parts : Parts) (issues : List Issue) :
    withoutExplanations (parts.record issues) = parts.record (issues.map plain) := by
  have shown : (issues.map toJson).map withoutExplanation =
      (issues.map plain).map toJson := by
    rw [List.map_map, List.map_map]
    exact List.map_congr_left fun issue _ => withoutExplanation_toJson issue
  unfold Parts.record
  rw [text_map_plain]
  unfold withoutExplanations Parts.members
  rw [← shown]
  rfl

/-- A report without explanations is the report on issues without explanations. -/
theorem map_withoutExplanations_finished (now : Moment) (analysis : Json) (issues : List Issue)
    (files : Json) (score : Int) :
    (finished now analysis issues files score).map withoutExplanations =
      finished now analysis (issues.map plain) files score := by
  rw [finished, finished, partsOf_map_plain]
  cases partsOf now analysis issues files score with
  | error fault => rfl
  | ok parts => exact congrArg Except.ok (withoutExplanations_record parts issues)

/-! ## The highest issues -/

/-- How many issues come before one when all are sorted by falling score and equal ones keep their
order: those that stand before it with at least its score and those after it with more. -/
def rank (before : List Issue) (issue : Issue) (after : List Issue) : Nat :=
  before.countP (fun other => issue.score ≤ other.score) +
    after.countP (fun other => issue.score < other.score)

/-- The rank of an issue is its place in the sorted list. -/
theorem getElem?_byScore_rank (before : List Issue) (issue : Issue) (after : List Issue) :
    (byScore (before ++ issue :: after))[rank before issue after]? = some issue := by
  rcases Sorting.ranked_append_cons score before issue after with ⟨above, below, sorted, count⟩
  have placed : byScore (before ++ issue :: after) = above ++ issue :: below := sorted
  rw [placed, rank, ← count]
  simp

/-- The scores of issues, each with its position. -/
def placed (issues : List Issue) : List (Nat × Int) :=
  issues.mapIdx fun position issue => (position, issue.score)

theorem map_fst_placed (issues : List Issue) :
    (placed issues).map Prod.fst = List.range issues.length := by
  apply List.ext_getElem
  · simp [placed]
  · simp [placed]

theorem placed_map_plain (issues : List Issue) : placed (issues.map plain) = placed issues := by
  apply List.ext_getElem
  · simp [placed]
  · simp [placed, plain]

theorem highestPositions_map_plain (issues : List Issue) :
    highestPositions (issues.map plain) = highestPositions issues :=
  congrArg (fun scores => ((Sorting.ranked Prod.snd scores).take explainedCount).map Prod.fst)
    (placed_map_plain issues)

theorem placed_append_cons (before : List Issue) (issue : Issue) (after : List Issue) :
    ∃ first last,
      placed (before ++ issue :: after) = first ++ (before.length, issue.score) :: last ∧
      first.map Prod.snd = before.map score ∧ last.map Prod.snd = after.map score := by
  refine ⟨placed before, after.mapIdx fun position issue =>
    (position + 1 + before.length, issue.score), ?_, ?_, ?_⟩
  · simp [placed, List.mapIdx_append, List.mapIdx_cons]
  · apply List.ext_getElem <;> simp [placed]
  · apply List.ext_getElem <;> simp

theorem mem_highestPositions_iff (before : List Issue) (issue : Issue) (after : List Issue) :
    before.length ∈ highestPositions (before ++ issue :: after) ↔
      rank before issue after < explainedCount := by
  rcases placed_append_cons before issue after with ⟨first, last, split, firstScores, lastScores⟩
  rcases Sorting.ranked_append_cons Prod.snd first (before.length, issue.score) last with
    ⟨above, below, sorted, count⟩
  have ranks : above.length = rank before issue after := by
    have earlier := congrArg (List.countP fun score => decide (issue.score ≤ score)) firstScores
    have later := congrArg (List.countP fun score => decide (issue.score < score)) lastScores
    rw [List.countP_map, List.countP_map] at earlier later
    exact count.trans (congrArg₂ (· + ·) earlier later)
  have unique : ((above ++ (before.length, issue.score) :: below).map Prod.fst).Nodup := by
    rw [← sorted, ← split]
    refine ((Sorting.ranked_perm Prod.snd _).map Prod.fst).nodup_iff.mpr ?_
    rw [map_fst_placed]
    exact List.nodup_range
  have positions : highestPositions (before ++ issue :: after) =
      ((above ++ (before.length, issue.score) :: below).take explainedCount).map Prod.fst := by
    rw [← sorted, ← split]
    rfl
  rw [positions, ← ranks]
  exact Sorting.label_mem_take_iff Prod.fst unique explainedCount

/-- Only issues that few come before have explanations. -/
theorem ExplainedAt.rank_lt {issues before after : List Issue} {issue : Issue}
    (explained : ExplainedAt (highestPositions issues) issues (before ++ issue :: after))
    (present : issue.explanation.isSome) : rank before issue after < explainedCount := by
  have placed : (before ++ issue :: after)[before.length]? = some issue := by
    simp
  have high := explained.only before.length issue placed present
  rw [← highestPositions_map_plain, ← explained.same, highestPositions_map_plain] at high
  exact (mem_highestPositions_iff before issue after).mp high

/-! ## The whole -/

/-- However the surroundings of two reports on one analysis differ, both reports are there or
neither is, and without their explanations they are equal.  Only the first three issues by falling
score, of which equal ones keep their order, have explanations. -/
theorem explanations_do_not_interfere (now : Moment) (analysis : Json)
    (hasAdvisor otherAdvisor : Bool) (environment otherEnvironment : Environment)
    (world otherWorld : World) :
    ((generate hasAdvisor environment now analysis).run.run world).1.map withoutExplanations =
        ((generate otherAdvisor otherEnvironment now analysis).run.run otherWorld).1.map
          withoutExplanations ∧
      ∀ report, ((generate hasAdvisor environment now analysis).run.run world).1 = .ok report →
        ∃ issues : List Issue, report.get? "issues" = some (.arr (issues.map toJson)) ∧
          ∀ before issue after, issues = before ++ issue :: after →
            (issue.toJson.get? explanationKey).isSome →
              rank before issue after < 3 ∧
                (byScore issues)[rank before issue after]? = some issue := by
  cases ready : prepared analysis with
  | error fault =>
      rw [generate_of_error ready, generate_of_error ready]
      exact ⟨rfl, nofun⟩
  | ok known =>
      rcases known with ⟨issues, files, score⟩
      rcases generate_of_ok ready hasAdvisor environment now world with
        ⟨first, firstExplained, firstRun⟩
      rcases generate_of_ok ready otherAdvisor otherEnvironment now otherWorld with
        ⟨second, secondExplained, secondRun⟩
      rw [firstRun, secondRun]
      constructor
      · rw [map_withoutExplanations_finished, map_withoutExplanations_finished,
          firstExplained.same, secondExplained.same]
      · intro report done
        rcases Outcome.exists_of_map done with ⟨parts, _, made⟩
        refine ⟨first, made ▸ get?_issues_record parts first, ?_⟩
        intro before issue after split present
        rw [get?_explanationKey] at present
        subst split
        exact ⟨firstExplained.rank_lt present, getElem?_byScore_rank before issue after⟩

end Report
end CodeQuality
