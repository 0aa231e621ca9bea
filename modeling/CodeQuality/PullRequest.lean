import CodeQuality.Json.Display
import CodeQuality.LanguageModel.Config

namespace CodeQuality

/-!
Reports on pull requests.

The result of an analysis is posted as a comment on a pull request and, if the commit
is known, as a check of that commit.  What the hosting service responds is part of
the surroundings.
-/

namespace PullRequest

/-- A response of the hosting service. -/
structure Response where
  status : Json
  text : String
  value : Json

/-- A request to the hosting service. -/
structure Call where
  address : String
  headers : List (String × String)
  content : Json

/-- The record of a request. -/
def Call.toJson (call : Call) : Json :=
  .obj [("url", .str call.address),
    ("headers", .obj (call.headers.map fun (name, value) => (name, .str value))),
    ("json", call.content)]

/-- The hosting service: what it is going to respond, and what it has been asked so far. -/
structure Hosting where
  responses : List Response
  calls : List Call

/-- A conversation with the hosting service, which may fail. -/
abbrev Conversation (α : Type) := ExceptT Fault (StateM Hosting) α

/-- The address of the hosting service. -/
def serviceAddress : String := "https://api.github.com"

/-- Send a request.  It is remembered, and the next response is taken. -/
def post (call : Call) : Conversation Response := do
  let hosting ← get
  let calls := hosting.calls ++ [call]
  match hosting.responses with
  | [] =>
      set { hosting with calls }
      throw (.connection "no more responses")
  | response :: responses =>
      set { hosting with calls, responses }
      pure response

/-- The token to use: the given one, or that of the environment. -/
def tokenFor (environment : Environment) (given : Json) : Outcome Json :=
  let token := if given.isTruthy then given else .ofText? (environment.get? "GITHUB_TOKEN")
  if token.isTruthy then .ok token
  else .error (.runtime "GitHub token required via parameter or GITHUB_TOKEN env var.")

/-- The headers of a request. -/
def headers (token : Json) : List (String × String) :=
  [("Authorization", "token " ++ token.display), ("Accept", "application/vnd.github.v3+json")]

/-- Whether a response says that the request was accepted. -/
def Response.isAccepted (response : Response) : Bool :=
  response.status.same (.int 200) || response.status.same (.int 201)

/-- Send a request and give back the value of the response.  A response that does not accept is a
fault with the given words. -/
def send (failure : String) (call : Call) : Conversation Json := do
  let response ← post call
  if response.isAccepted then pure response.value
  else throw (.runtime (failure ++ ": " ++ response.status.display ++ ", " ++ response.text))

/-- Where a pull request is, and the token that was given. -/
structure Target where
  repository : Json
  number : Json
  token : Json

/-- The address of a repository. -/
def repositoryAddress (repository : Json) : String :=
  serviceAddress ++ "/repos/" ++ repository.display

/-- Post a comment on a pull request. -/
def comment (environment : Environment) (target : Target) (body : Json) : Conversation Json := do
  let token ← (tokenFor environment target.token : Outcome Json)
  send "Failed to post PR comment"
    { address := repositoryAddress target.repository ++ "/issues/" ++ target.number.display ++
        "/comments"
      headers := headers token
      content := .obj [("body", body)] }

/-- A check of a commit. -/
structure Check where
  commit : Json
  name : Json
  status : Json
  conclusion : Json
  output : Json

/-- The record of a check.  There is a conclusion only when it is completed. -/
def Check.toJson (check : Check) : Json :=
  .obj [("name", check.name), ("head_sha", check.commit), ("status", check.status),
    ("conclusion", if check.status.isText "completed" then check.conclusion else .null),
    ("output", check.output)]

/-- Create a check. -/
def createCheck (environment : Environment) (repository token : Json) (check : Check) :
    Conversation Json := do
  let token ← (tokenFor environment token : Outcome Json)
  send "Failed to create check run"
    { address := repositoryAddress repository ++ "/check-runs"
      headers := headers token
      content := check.toJson }

/-! ## The comment on a report -/

/-- How many issues are listed. -/
def listedIssues : Nat := 5

/-- The issues with the highest scores. -/
def highest (issues : List Json) : Outcome (List Json) := do
  let keyed ← issues.mapM fun issue => do pure (issue, ← issue.member "score" (.int 0))
  let sorted ← Sorting.descendingBy (·.2) keyed
  pure ((sorted.take listedIssues).map (·.1))

/-- The line of an issue, with its rank. -/
def issueLine (rank : Nat) (issue : Json) : String :=
  let shown := fun (key : String) (absent : Json) => ((issue.get? key).getD absent).display
  toString rank ++ ". [" ++ shown "id" .null ++ "] " ++ shown "category" .null ++ " (" ++
    shown "severity" .null ++ ") at " ++ shown "file" (.str "?") ++ ":" ++
    shown "lineno" (.str "?") ++ " - " ++ shown "message" .null

/-- The comment on the record of a report. -/
def commentOn (report : Json) : Outcome String := do
  let issues ← (← report.member "issues" (.arr [])).elements
  let listed ← highest issues
  let score ← report.member "overall_score" (.str "?")
  pure <| Text.joinLines <|
    ["**CQIA Analysis Report**", "Overall Score: " ++ score.display ++ "/100", "",
      "**Top Issues:**"] ++ listed.mapIdx fun position issue => issueLine (position + 1) issue

/-- How much of a comment is shown with a check. -/
def summaryLimit : Int := 6000

/-- Post a report: a comment, and a check if the report names a commit. -/
def postReport (environment : Environment) (target : Target) (report : Json) :
    Conversation Unit := do
  let body ← (commentOn report : Outcome String)
  let _ ← comment environment target (.str body)
  let details ← (report.member "meta" (.obj []) : Outcome Json)
  let commit ← (details.member "head_sha" .null : Outcome Json)
  if commit.isTruthy then
    let summary := String.ofList (Text.upTo body.toList summaryLimit)
    let _ ← createCheck environment target.repository target.token
      { commit
        name := .str "CQIA"
        status := .str "completed"
        conclusion := .str "neutral"
        output := .obj [("title", .str "CQIA Analysis Report"), ("summary", .str summary)] }
  pure ()

end PullRequest
end CodeQuality
