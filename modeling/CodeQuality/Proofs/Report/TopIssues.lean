import CodeQuality.Proofs.Report.Generation
import CodeQuality.Proofs.Selection
import CodeQuality.PullRequest

namespace CodeQuality

open PullRequest Json

/-!
The highest issues of a report, wherever they are shown.

A report recommends something for its highest issues, its Markdown text has them in a
table, and the comment on a pull request lists them.  Each of the three sorts and cuts
the issues by itself, the comment with a score of nought for issues without one.  They
agree, since a report has a score for every issue: all show the same issues in the same
order, and the comment is what the hosting service is asked to post.
-/

/-! ## Conversations -/

namespace PullRequest

section

variable {α β : Type}

/-- A conversation adds to what the hosting service has been asked. -/
def Adds (conversation : Conversation α) : Prop :=
  ∀ hosting, hosting.calls <+: (conversation.run.run hosting).2.calls

/-- What has been asked stays asked while the conversation goes on. -/
theorem calls_bind (first : Conversation α) {next : α → Conversation β}
    (adds : ∀ value, Adds (next value)) (hosting : Hosting) :
    (first.run.run hosting).2.calls <+: ((first >>= next).run.run hosting).2.calls := by
  change (first hosting).2.calls <+:
    ((ExceptT.bindCont next (first hosting).1 : StateM Hosting (Except Fault β))
      (first hosting).2).2.calls
  cases (first hosting).1 with
  | error fault => exact List.prefix_rfl
  | ok value => exact adds value (first hosting).2

theorem Adds.bind {first : Conversation α} {next : α → Conversation β} (adds : Adds first)
    (more : ∀ value, Adds (next value)) : Adds (first >>= next) :=
  fun hosting => (adds hosting).trans (calls_bind first more hosting)

end

/-- The call that posts a comment. -/
def commentCall (target : Target) (token body : Json) : Call where
  address := repositoryAddress target.repository ++ "/issues/" ++ target.number.display ++
    "/comments"
  headers := headers token
  content := .obj [("body", body)]

end PullRequest

namespace Report

/-! ## The texts -/

theorem get?_markdown_record (parts : Parts) (issues : List Issue) :
    (parts.record issues).get? "markdown" = some (.str (parts.text issues)) := by
  simp [Parts.record, Parts.members, get?, lookup?]

/-- The lines of a comment before its issues. -/
def commentOpening (score : Int) : List String :=
  ["**CQIA Analysis Report**", "Overall Score: " ++ (int score).display ++ "/100", "",
    "**Top Issues:**"]

/-- The lines of a Markdown text before its rows. -/
def tableOpening (score : Int) : List String :=
  ["# Code Quality Report\n", "**Overall Score:** " ++ (int score).display ++ "/100\n",
    "## Top Issues\n", "| ID | Severity | Location | Message |",
    "|----|----------|----------|---------|"]

/-- All that shows the highest issues of a report shows given ones, in their order: its
recommendations, the table in its Markdown text, and the comment that is posted on it with whatever
token there is. -/
structure Shows (report : Json) (score : Int) (shown : List Issue) : Prop where
  recommendations : report.get? "recommendations" = some (.texts (shown.map recommendation))
  table : ∃ rows text, shown.mapM (fun issue => row issue.toJson) = .ok rows ∧
    text = Text.joinLines (tableOpening score ++ rows ++ ["\n## Recommendations\n"] ++
      (shown.map recommendation).map fun advice => "- " ++ advice) ∧
    markdown report = .ok text ∧ report.get? "markdown" = some (.str text)
  comment : ∃ body, body = Text.joinLines (commentOpening score ++
      (shown.map Issue.toJson).mapIdx fun position issue =>
        issueLine (position + 1) issue) ∧
    commentOn report = .ok body ∧
    ∀ environment target token hosting,
      tokenFor environment target.token = .ok token →
      ∃ later, ((postReport environment target report).run.run hosting).2.calls =
        hosting.calls ++ commentCall target token (.str body) :: later

end Report
end CodeQuality
