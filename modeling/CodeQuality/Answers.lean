import CodeQuality.Advisor

namespace CodeQuality
namespace Answers

/-!
Answers to questions about a report.

With the language model turned on, the advisor answers.  Otherwise, or when the
advisor fails, the words of the question decide which part of the report is the
answer.
-/

open Text

/-- An answer: its text, the files it rests on, and how sure it is. -/
def answer (text : String) (sources : List Json) (confidence : String) : Json :=
  Advisor.answerRecord (.str text) (.arr sources) (.str confidence)

/-- Whether one of several phrases stands in a question. -/
def mentions (question : List Char) (phrases : List String) : Bool :=
  phrases.any fun phrase => holdsWord phrase question

/-- The value under a key of an issue; nothing if it is not there. -/
def value (issue : Json) (key : String) : Json := (issue.get? key).getD .null

/-- The text of a field of an issue. -/
def shown (issue : Json) (key : String) : String := (value issue key).display

/-- The line of an issue, or a question mark. -/
def lineText (issue : Json) : String :=
  let line := value issue "lineno"
  if line.isTruthy then line.display else "?"

/-- The file of an issue as a source. -/
def source (issue : Json) : Json := (issue.get? "file").getD (.str "")

/-- The issues that have a text under a key and, if asked for, another text under a second
key. -/
def having (issues : List Json) (category : String) (severity : Option String) :
    Outcome (List Json) := do
  let kept ← issues.mapM fun issue => do
    if (← issue.member "category" .null).isText category then
      match severity with
      | some wanted => pure (issue, (value issue "severity").isText wanted)
      | none => pure (issue, true)
    else pure (issue, false)
  pure ((kept.filter (·.2)).map (·.1))

/-! ## The most severe issues -/

/-- The rank of a severity. -/
def rank (severity : Json) : Outcome Nat := do
  match ← severity.asKey with
  | .str "critical" => pure 4
  | .str "high" => pure 3
  | .str "medium" => pure 2
  | .str "low" => pure 1
  | _ => pure 0

/-- An issue with what it is sorted by. -/
structure Ranked where
  issue : Json
  rank : Nat
  id : Json

/-- Whether one issue comes before another: by rank, and by identifier within a rank. -/
def Ranked.isBefore (first second : Ranked) : Outcome Bool :=
  if first.rank ≠ second.rank then .ok (decide (first.rank < second.rank))
  else if Json.same first.id second.id then .ok false
  else Json.isBefore first.id second.id

/-- The most severe issues, the most severe first. -/
def mostSevere (issues : List Json) : Outcome (List Json) := do
  let ranked ← issues.mapM fun issue => do
    let severity ← issue.member "severity" (.str "low")
    pure (⟨issue, ← rank severity, (issue.get? "id").getD (.str "")⟩ : Ranked)
  let sorted ← Sorting.descending Ranked.isBefore ranked
  pure ((sorted.take 3).map (·.issue))

/-- The answer that lists the most severe issues. -/
def severeAnswer (issues : List Json) : Outcome Json := do
  let top ← mostSevere issues
  if top.isEmpty then pure (answer "No issues found." [] "low")
  else
    let rows := top.map fun issue =>
      "- [" ++ shown issue "id" ++ "] " ++ shown issue "category" ++ " (" ++
        shown issue "severity" ++ ") in " ++ shown issue "file" ++ ":" ++ lineText issue ++ ": " ++
        shown issue "message"
    pure (answer (joinLines (("Top " ++ toString top.length ++ " issues:") :: rows))
      (top.map source) "high")

/-! ## Tests, files and fixes -/

/-- The answer that lists missing tests. -/
def testsAnswer (issues : List Json) : Outcome Json := do
  let missing ← having issues "testing" (some "missing")
  if missing.isEmpty then pure (answer "No missing tests detected." [] "high")
  else
    let rows := missing.map fun issue =>
      "- " ++ shown issue "file" ++ " : " ++ shown issue "message"
    pure (answer
      (joinLines (("Missing tests detected in " ++ toString missing.length ++ " location(s):") ::
        rows)) (missing.map source) "high")

/-- Whether a character can stand in the name of a file. -/
def isFileChar (c : Char) : Bool := isWord c || c == '.' || c == '/' || c == '-'

/-- The longest beginning of a run of characters that ends like a source file and has a name
before the ending; the characters read so far are in reverse order. -/
def longestFile? (done : List Char) : List Char → Option (List Char)
  | [] => none
  | c :: rest =>
      match longestFile? (c :: done) rest with
      | some found => some found
      | none =>
          let isEnding := ".py".toList.isPrefixOf (c :: rest) || ".js".toList.isPrefixOf (c :: rest)
          if isEnding && !done.isEmpty then some (done.reverse ++ (c :: rest).take 3) else none

/-- The name of a source file at the front of a text. -/
def fileName : Scanner (List Char) := fun text =>
  (longestFile? [] (text.takeWhile isFileChar)).map fun name => (name, text.drop name.length)

/-- The first match of a scanner in a text. -/
def first? (scan : Scanner α) (text : List Char) : Option (Match α) :=
  (findMatches (fun _ => scan) text).head?

/-- The answer about a file. -/
def fileAnswer (issues : List Json) (name : String) : Outcome Json := do
  let kept ← issues.mapM fun issue => do
    let file ← issue.member "file" .null
    if file.isTruthy then pure (issue, ← file.holdsText name) else pure (issue, false)
  let found := (kept.filter (·.2)).map (·.1)
  if found.isEmpty then
    pure (answer ("No issues found for " ++ name ++ ".") [.str name] "medium")
  else
    let rows := (found.take 5).map fun issue =>
      "- [" ++ shown issue "id" ++ "] " ++ shown issue "severity" ++ " " ++
        shown issue "category" ++ ": " ++ shown issue "message"
    pure (answer (joinLines (("Issues for " ++ name ++ ":") :: rows)) [.str name] "medium")

/-- Whether a character is a hexadecimal digit in any case. -/
def isMarkDigit (c : Char) : Bool :=
  ('0' ≤ c && c ≤ '9') || ['a', 'b', 'c', 'd', 'e', 'f'].any fun letter => isLetter letter c

/-- The identifier of an issue at the front of a text. -/
def issueId : Scanner Unit := fun text => do
  let text ← (afterAnyCase? "py".toList text) <|> (afterAnyCase? "js".toList text)
  let text ← after? ['-'] text
  let (_, text) ← run? isWord text
  let text ← after? ['-'] text
  let (_, text) ← run? isMarkDigit text
  pure ((), text)

/-- The first identifier of an issue in a text. -/
def findId? (text : List Char) : Option String :=
  (first? issueId text).map fun found => String.ofList (found.text.take found.length)

/-- The first issue whose identifier is a given one when case does not matter. -/
def findByLoweredId? (id : String) : List Json → Outcome (Option Json)
  | [] => .ok none
  | issue :: rest => do
      let own ← (← issue.member "id" (.str "")).lowered
      if own = Text.lowerString id then pure (some issue) else findByLoweredId? id rest

/-- The answer that says how to fix an issue. -/
def fixAnswer (issues : List Json) (id : String) : Outcome Json := do
  match ← findByLoweredId? id issues with
  | none => pure (answer ("Issue " ++ id ++ " not found.") [] "low")
  | some issue =>
      let fix := (issue.get? "suggested_fix").getD (.str "No fix available.")
      pure (answer ("Suggested fix for " ++ id ++ ": " ++ fix.display) [source issue] "high")

/-! ## Lists by category -/

/-- Put a source into a list in order, unless it is there.  An absent source comes first. -/
def insertSource (item : Json) : List Json → List Json
  | [] => [item]
  | own :: rest =>
      if Json.same own item then own :: rest
      else
        let isFirst := match item, own with
          | .null, _ => true
          | _, .null => false
          | .str a, .str b => decide (a < b)
          | a, b => (Json.isBefore a b).toOption.getD false
        if isFirst then item :: own :: rest else own :: insertSource item rest

/-- The sources of issues in order, each of them once. -/
def distinctSources (issues : List Json) : Outcome (List Json) := do
  let keys ← (issues.map source).mapM Json.asKey
  pure (keys.foldl (fun sources item => insertSource item sources) [])

/-- The answer that lists issues under a heading, at most ten of them. -/
def listAnswer (heading : String) (issues : List Json) : Outcome Json := do
  let listed := issues.take 10
  let rows := listed.map fun issue =>
    "- " ++ shown issue "file" ++ ":" ++ lineText issue ++ " - " ++ shown issue "id" ++ ": " ++
      shown issue "message"
  let sources ← distinctSources listed
  pure (answer (joinLines ((heading ++ " (" ++ toString issues.length ++ " found):") :: rows))
    sources "high")

/-- The answer that lists the functions that are too complex. -/
def complexityAnswer (issues : List Json) : Outcome Json := do
  let found ← having issues "complexity" (some "high")
  if found.isEmpty then pure (answer "No high complexity functions found." [] "high")
  else listAnswer "High complexity functions" found

/-- The answer that lists security issues. -/
def securityAnswer (issues : List Json) : Outcome Json := do
  let found ← having issues "security" none
  if found.isEmpty then pure (answer "No security issues found." [] "high")
  else listAnswer "Security issues" found

/-! ## Questions -/

/-- The answer that the words of a question ask for. -/
def byWords (report question : Json) : Outcome Json := do
  let asked := (← question.lowered).toList
  let issues ← report.member "issues" (.arr [])
  if mentions asked ["top", "highest", "most severe"] then severeAnswer (← issues.elements)
  else if mentions asked ["missing tests", "tests missing", "no tests"] then
    testsAnswer (← issues.elements)
  else
    match first? fileName asked with
    | some found => fileAnswer (← issues.elements) (String.ofList found.value)
    | none =>
        match mentions asked ["how to fix"], findId? asked with
        | true, some id => fixAnswer (← issues.elements) id
        | _, _ =>
            if mentions asked ["high complexity", "complex functions", "complexity issues"] then
              complexityAnswer (← issues.elements)
            else if mentions asked ["security", "vulnerability", "vulnerabilities"] then
              securityAnswer (← issues.elements)
            else
              let score ← report.member "overall_score" (.int 0)
              let summary ← report.member "summary" (.str "")
              pure (answer ("Overall score: " ++ score.display ++ "/100. Summary: " ++
                summary.display) [] "medium")

/-- What the advisor says: about an issue if the question names one, and about the report
otherwise. -/
def byAdvisor (environment : Environment) (config : LanguageModel.Config)
    (report question : Json) : Action Json := do
  let advisor ← Advisor.new environment config
  match question with
  | .str text =>
      let said ← match findId? text.toList with
        | some id => advisor.explain environment report (.str id)
        | none => advisor.answer report question
      pure (Advisor.answerRecord ((said.get? "answer").getD (.str said.display))
        ((said.get? "sources").getD (.arr [])) ((said.get? "confidence").getD (.str "medium")))
  | other => throw (.wrongKind
      ("expected string or bytes-like object, got '" ++ other.kindName ++ "'"))

/-- The answer to a question about a report. -/
def ask (hasAdvisor : Bool) (environment : Environment) (report question : Json) : Action Json := do
  let config ← Action.ofOutcome (LanguageModel.Config.load environment)
  if config.isEnabled && hasAdvisor then
    match ← (byAdvisor environment config report question).outcome with
    | .ok said => pure said
    | .error _ => Action.ofOutcome (byWords report question)
  else Action.ofOutcome (byWords report question)

end Answers
end CodeQuality
