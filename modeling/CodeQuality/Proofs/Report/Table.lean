import CodeQuality.Proofs.Answers.FileQuestions
import CodeQuality.Proofs.Report.Explanation
import CodeQuality.Proofs.Report.TopIssues
import CodeQuality.Proofs.Text.Cells
import Mathlib.Data.List.Perm.Subperm

namespace CodeQuality

/-!
The table in the text of a report, read back.

A row is a line with bars around its cells, and nothing is escaped.  Whoever reads the
table cuts the text into lines, cuts each line at its bars and trims the pieces.  This
gives back what was written if and only if no text in a row holds a line end or a bar
and none is blank at an end.  Identifiers and severities are always of this kind, and of
the messages all but those that name a function or tell why a source cannot be read.
So it is the names of files, of functions and of unknown languages that decide, and what
an interpreter says.
-/

open Text Analysis ScoredFinding Sorting Files List

namespace Report

/-! ## The lines of the table -/

/-- The line between the head of the table and its rows. -/
def tableRule : List Char := "|----|----------|----------|---------|".toList

/-- The line that opens the recommendations. -/
def adviceHeading : List Char := "## Recommendations".toList

/-- The lines of the table in a text: those between its rule and the recommendations, without the
empty ones. -/
def tableLines (text : List Char) : List (List Char) :=
  ((((text.splitOn '\n').dropWhile (· ≠ tableRule)).drop 1).takeWhile (· ≠ adviceHeading)).filter
    (· ≠ [])

theorem oneLine_of_mem_tableLines {text line : List Char} (member : line ∈ tableLines text) :
    '\n' ∉ line := by
  have listed := mem_of_mem_filter member
  have inside := (List.takeWhile_prefix _).subset listed
  have cut := (dropWhile_suffix _).subset (mem_of_mem_drop inside)
  exact (of_mem_splitOn cut).1

theorem newline_notMem_int (value : Int) : '\n' ∉ (Json.int value).display.toList := by
  cases value with
  | ofNat n => exact notMem_numeral (by decide) n
  | negSucc n =>
      have digits : '\n' ∉ (toString (n + 1)).toList := notMem_numeral (by decide) (n + 1)
      change '\n' ∉ ("-" ++ toString (n + 1)).toList
      rw [String.toList_append, mem_append, not_or]
      exact ⟨by decide, digits⟩

/-- The line with the score. -/
def scoreLine (score : Int) : List Char :=
  ("**Overall Score:** " ++ (Json.int score).display ++ "/100").toList

theorem splitOn_scoreLine (score : Int) :
    splitOn '\n' ("**Overall Score:** " ++ (Json.int score).display ++ "/100\n").toList =
      [scoreLine score, []] := by
  have whole : ("**Overall Score:** " ++ (Json.int score).display ++ "/100\n").toList =
      scoreLine score ++ '\n' :: [] := by
    have last : "/100\n".toList = "/100".toList ++ ['\n'] := by decide
    simp only [scoreLine, String.toList_append, last, append_assoc]
  have oneLine : '\n' ∉ scoreLine score := by
    rw [scoreLine, String.toList_append, String.toList_append, mem_append, mem_append,
      not_or, not_or]
    exact ⟨⟨by decide, newline_notMem_int score⟩, by decide⟩
  rw [whole, splitOn_append_cons, splitOn_eq_singleton oneLine, splitOn_nil]
  rfl

/-- The lines of a text before the rows. -/
def openingLines (score : Int) : List (List Char) :=
  ["# Code Quality Report".toList, [], scoreLine score, [], "## Top Issues".toList, [],
    "| ID | Severity | Location | Message |".toList]

theorem lines_tableOpening (score : Int) :
    ((tableOpening score).map String.toList).flatMap (splitOn '\n') =
      openingLines score ++ [tableRule] := by
  have title : splitOn '\n' "# Code Quality Report\n".toList =
      ["# Code Quality Report".toList, []] := by
    rw [String.toList_ofList, String.toList_ofList]
    rfl
  have top : splitOn '\n' "## Top Issues\n".toList = ["## Top Issues".toList, []] := by
    rw [String.toList_ofList, String.toList_ofList]
    rfl
  have head : '\n' ∉ "| ID | Severity | Location | Message |".toList := by
    rw [String.toList_ofList]
    decide
  have rule : '\n' ∉ "|----|----------|----------|---------|".toList := by
    rw [String.toList_ofList]
    decide
  simp only [tableOpening, map_cons, map_nil, flatMap_cons, flatMap_nil,
    splitOn_scoreLine, title, top, splitOn_eq_singleton head, splitOn_eq_singleton rule]
  rfl

theorem tableRule_notMem_openingLines (score : Int) : tableRule ∉ openingLines score := by
  have opened : ∀ line ∈ openingLines score, line.take 2 ≠ "|-".toList := by
    simp [openingLines, scoreLine]
  intro member
  exact opened tableRule member rfl

/-- The lines of the table are its rows, if each of them is one line. -/
theorem tableLines_joinLines (score : Int) {rows : List String} (advice : List String)
    (oneLine : ∀ row ∈ rows, '\n' ∉ row.toList)
    (barred : ∀ row ∈ rows, row.toList.head? = some '|') :
    tableLines (joinLines (tableOpening score ++ rows ++ ["\n## Recommendations\n"] ++
      advice)).toList = rows.map String.toList := by
  have whole : (rows.map String.toList).flatMap (splitOn '\n') = rows.map String.toList := by
    refine (flatMap_congr fun line member => ?_).trans (flatMap_singleton' _)
    rcases mem_map.mp member with ⟨row, listed, rfl⟩
    exact splitOn_eq_singleton (oneLine row listed)
  have lines : (joinLines (tableOpening score ++ rows ++ ["\n## Recommendations\n"] ++
      advice)).toList.splitOn '\n' = openingLines score ++ tableRule ::
        (rows.map String.toList ++ [] :: adviceHeading :: [] ::
          (advice.map String.toList).flatMap (splitOn '\n')) := by
    rw [joinLines, String.toList_intercalate]
    refine (splitOn_intercalate_eq_flatMap (by simp [tableOpening])).trans ?_
    simp only [map_append, flatMap_append, lines_tableOpening, whole,
      append_assoc, singleton_append]
    rfl
  have opened : ∀ line ∈ openingLines score, decide (line ≠ tableRule) = true := by
    intro line member
    exact decide_eq_true fun same => tableRule_notMem_openingLines score (same ▸ member)
  have shown : ∀ line ∈ rows.map String.toList,
      decide (line ≠ adviceHeading) = true ∧ decide (line ≠ []) = true := by
    intro line member
    rcases mem_map.mp member with ⟨row, listed, rfl⟩
    have bar := barred row listed
    constructor
    · refine decide_eq_true fun same => ?_
      rw [same] at bar
      cases bar
    · refine decide_eq_true fun same => ?_
      rw [same] at bar
      cases bar
  rw [tableLines, lines, dropWhile_append_of_pos opened,
    dropWhile_cons_of_neg (by simp), drop_one, tail_cons,
    takeWhile_append_of_pos fun line member => (shown line member).1,
    takeWhile_cons_of_pos (by decide), takeWhile_cons_of_neg (by simp),
    filter_append, filter_eq_self.mpr fun line member => (shown line member).2]
  exact append_nil _

end Report

/-! ## Findings as cells -/

namespace Finding

/-- Where a finding is said to stand. -/
def location (finding : Finding) : String :=
  match finding.details with
  | some details => details.file ++ ":" ++ (Json.ofNat? details.line).display
  | none => "N/A"

/-- What a row has to show of a finding. -/
def cells (finding : Finding) : List (List Char) :=
  [finding.id, finding.severity.name, finding.location, finding.message].map String.toList

/-- What is asked of the texts in a finding: the name of its file, that of a function which is too
complex, that of a language which is not known, and what is said of a source that cannot be
read. -/
@[mk_iff]
structure IsShowable (finding : Finding) : Prop where
  file : ∀ details ∈ finding.details,
    Unmarked details.file.toList ∧ OpensClear details.file.toList
  function : finding.category = .complexity → Unmarked finding.message.toList
  language : finding.details = none → Unmarked finding.id.toList ∧ ClosesClear finding.id.toList
  complaint : finding.category = .parsing →
    Unmarked finding.message.toList ∧ ClosesClear finding.message.toList

instance (finding : Finding) : Decidable finding.IsShowable :=
  decidable_of_iff _ (isShowable_iff finding).symm

theorem isCell_line (line : Option Nat) :
    IsCell (":".toList ++ (Json.ofNat? line).display.toList) := by
  cases line with
  | none => decide
  | some n => exact isCell_of_forall (forall_mem_cons.mpr ⟨by decide, clear_numeral n⟩)

end Finding

namespace Analysis

open Survey

theorem isCell_danger {callee : String} {danger : Python.Danger}
    (known : Python.danger? callee = some danger) : IsCell danger.message.toList := by
  unfold Python.danger? at known
  split at known
  next called =>
    have unmarked : Unmarked callee.toList := by
      rcases called with rfl | rfl
      · decide
      · decide
    cases known
    rw [String.toList_append, String.toList_append]
    exact isCell_enclosed (by decide) (by decide) unmarked
  next =>
    split at known
    next =>
      cases known
      exact isCell_literal (by decide)
    next =>
      split at known
      next =>
        cases known
        exact isCell_literal (by decide)
      next => cases known

theorem unmarked_suspicion? {source : List Char} {node : CodeQuality.Script.Node}
    {suspicion : Suspicion} (read : node.suspicion? source = some suspicion) :
    Unmarked suspicion.kind.toList := by
  have names : ∀ kind ∈ ["eval", "dom-xss", "new_function"], Unmarked kind.toList := by
    decide
  have told : ∀ kind ∈ ["eval", "dom-xss", "new_function"], ∀ line snippet,
      some (⟨kind, line, snippet⟩ : Suspicion) = some suspicion →
        Unmarked suspicion.kind.toList := by
    intro kind fixed line snippet same
    cases same
    exact names kind fixed
  unfold CodeQuality.Script.Node.suspicion? at read
  split at read
  · simp only at read
    split at read
    · exact told _ (by decide) _ _ read
    · split at read
      · exact told _ (by decide) _ _ read
      · split at read
        · exact told _ (by decide) _ _ read
        · cases read
  · cases read

theorem unmarked_suspicion {source : List Char} {tree : Option CodeQuality.Script.Node}
    {suspicion : Suspicion} (member : suspicion ∈ (Script.reading source tree).2) :
    Unmarked suspicion.kind.toList := by
  cases tree with
  | none =>
      have fixed : ∀ construct ∈ CodeQuality.Script.constructs, Unmarked construct.1.toList := by
        simp [CodeQuality.Script.constructs, Unmarked]
      rcases mem_flatMap.mp member with ⟨construct, listed, found⟩
      rcases mem_map.mp found with ⟨_, _, rfl⟩
      exact fixed construct listed
  | some tree =>
      rcases mem_filterMap.mp member with ⟨node, _, read⟩
      exact unmarked_suspicion? read

theorem clear_hexLetters : ∀ c ∈ hexLetters, c ≠ '|' ∧ isBlank c = false := by
  have all : (hexLetters.all fun c => decide (c ≠ '|' ∧ isBlank c = false)) = true := by decide
  exact fun c member => of_decide_eq_true (all_eq_true.mp all c member)

section

variable {reading : Reading} {files : Files} {root : Path} {language : RequestedLanguage}
  {kind : Kind} {finding : Finding}

theorem Emission.category_eq {other : RequestedLanguage} {second : Kind} {same : Finding}
    (emission : Emission reading files root language kind finding)
    (another : Emission reading files root other second same) (ids : finding.id = same.id) :
    finding.category = same.category := by
  cases emission.kind_eq another ids
  cases emission <;> cases another <;> rfl

theorem Emission.isCell_id (emission : Emission reading files root language kind finding)
    (showable : finding.IsShowable) : IsCell finding.id.toList := by
  by_cases known : kind = .language
  · subst known
    cases emission with
    | @language text =>
        have named := showable.language rfl
        refine ⟨named.1, ?_, named.2⟩
        rw [languageFinding, String.toList_append]
        intro c first
        cases first
        decide
  · rcases emission.marked known with ⟨mark, spelled, present, digits⟩
    have label : ∃ letters, kind.label = String.ofList letters ∧ IsCell letters ∧ letters ≠ [] := by
      cases kind <;> exact ⟨_, rfl, by decide, by decide⟩
    rcases label with ⟨letters, named, cell, opened⟩
    have marked := isCell_of_forall fun c member => clear_hexLetters c (digits c member)
    rw [spelled, named, String.toList_ofList, isCell_append opened present]
    exact ⟨⟨cell.1, cell.2.1⟩, marked.1, marked.2.2⟩

theorem Emission.isCell_message (emission : Emission reading files root language kind finding)
    (showable : finding.IsShowable) : IsCell finding.message.toList := by
  have note : IsCell "TODO/FIXME comment found.".toList := isCell_literal (by decide)
  cases emission with
  | parsing =>
      have told := showable.complaint rfl
      refine ⟨told.1, ?_, told.2⟩
      rw [Python.parsingFinding, String.toList_append]
      intro c first
      cases first
      decide
  | complexity =>
      have unmarked := showable.function rfl
      simp only [Python.complexityFinding, String.toList_append] at unmarked ⊢
      rw [append_assoc "Function '".toList, append_assoc "Function '".toList]
        at unmarked ⊢
      exact isCell_enclosed (by decide) (by decide)
        (unmarked_append.mp (unmarked_append.mp unmarked).1).2
  | note => exact note
  | danger _ _ _ _ known => exact isCell_danger known
  | @package name =>
      rcases relativeText_concat root name with ⟨front, spelled⟩
      have path : Unmarked ("/" ++ relativeText (root ++ [name])).toList :=
        (showable.file _ rfl).1
      rw [String.toList_append, spelled, unmarked_append, unmarked_append] at path
      rw [Python.testingFinding, String.toList_append, String.toList_append]
      exact isCell_enclosed (by decide) (by decide) path.2.2
  | scriptNote => exact note
  | suspicion _ inside =>
      rw [Script.suspicionFinding, String.toList_append, String.toList_append]
      exact isCell_enclosed (by decide) (by decide) (unmarked_suspicion inside)
  | @duplication _ places =>
      rw [Script.duplicationFinding, String.toList_append, String.toList_append]
      exact isCell_enclosed (by decide) (by decide)
        (isCell_of_forall (clear_numeral places.length)).1
  | scripts =>
      have untested :
          IsCell "No tests detected (no package.json test script or test files).".toList :=
        isCell_literal (by decide)
      exact untested
  | language =>
      have named := (showable.language rfl).1
      rw [languageFinding, String.toList_append, unmarked_append] at named
      rw [languageFinding, String.toList_append, String.toList_append]
      exact isCell_enclosed (by decide) (by decide) named.2

theorem Emission.isCell_location_iff (emission : Emission reading files root language kind finding)
    {details : Details} (placed : finding.details = some details) :
    IsCell finding.location.toList ↔
      Unmarked details.file.toList ∧ OpensClear details.file.toList := by
  have named : finding.file? = some details.file := by
    rw [Finding.file?, placed]
    rfl
  have present : details.file.toList ≠ [] :=
    mt String.toList_eq_nil_iff.mp (emission.file_ne_empty named)
  have line := Finding.isCell_line details.line
  rw [Finding.location, placed, String.toList_append, String.toList_append, append_assoc,
    isCell_append present (by simp)]
  exact and_iff_left ⟨line.1, line.2.2⟩

theorem Emission.isCell_location (emission : Emission reading files root language kind finding)
    (showable : finding.IsShowable) : IsCell finding.location.toList := by
  cases placed : finding.details with
  | none =>
      have absent : IsCell "N/A".toList := isCell_literal (by decide)
      rw [Finding.location, placed]
      exact absent
  | some details =>
      rw [emission.isCell_location_iff placed]
      exact showable.file details placed

/-- What a row shows of a finding can be read back if and only if the texts in it allow it. -/
theorem Emission.forall_isCell_iff (emission : Emission reading files root language kind finding) :
    (∀ cell ∈ finding.cells, IsCell cell) ↔ finding.IsShowable := by
  have severity : IsCell finding.severity.name.toList := by
    cases finding.severity <;> exact isCell_literal (by decide)
  constructor
  · intro fit
    rw [Finding.cells, forall_mem_map] at fit
    have id := fit finding.id (by simp)
    have message := fit finding.message (by simp)
    refine ⟨?_, fun _ => message.1, fun _ => ⟨id.1, id.2.2⟩, fun _ => ⟨message.1, message.2.2⟩⟩
    intro details placed
    rw [← emission.isCell_location_iff placed]
    exact fit _ (by simp)
  · intro showable
    rw [Finding.cells, forall_mem_map]
    simp only [forall_mem_cons]
    exact ⟨emission.isCell_id showable, severity, emission.isCell_location showable,
      emission.isCell_message showable, forall_mem_nil _⟩

end

end Analysis

namespace Report

/-! ## The table of a report -/

theorem toList_row {scored : ScoredFinding}
    (named : ∀ file, scored.finding.file? = some file → file ≠ "") :
    (Issue.ofScored scored).row.toList = rowLine scored.finding.cells := by
  have location : (if (Issue.ofScored scored).file.isTruthy then
      (Issue.ofScored scored).file.display ++ ":" ++ (Issue.ofScored scored).line.display
      else "N/A") = scored.finding.location := by
    cases placed : scored.finding.details with
    | none => simp [Issue.ofScored, Finding.location, placed, Json.isTruthy]
    | some details =>
        have present : details.file ≠ "" := named details.file (by simp [Finding.file?, placed])
        simp [Issue.ofScored, Finding.location, placed, Json.isTruthy, present]
  rw [Issue.row, location]
  simp [Issue.ofScored, Finding.cells, rowLine, spaced]

theorem exists_of_forall₂_mem {α β : Type} {related : α → β → Prop} {items : List α}
    {others : List β} (pairs : Forall₂ related items others) {other : β}
    (member : other ∈ others) : ∃ item ∈ items, related item other := by
  rcases getElem_of_mem member with ⟨position, bound, rfl⟩
  have inside : position < items.length := pairs.length_eq ▸ bound
  exact ⟨_, get_mem items ⟨position, inside⟩, pairs.get inside bound⟩

/-- The rows that are shown, one line each, read as the findings if and only if all that they show
can be read back. -/
theorem forall₂_isRow_iff (score : Int) {shown : List ScoredFinding} (advice : List String)
    (named : ∀ scored ∈ shown, ∀ file, scored.finding.file? = some file → file ≠ "") :
    Forall₂ IsRow
        (tableLines (joinLines (tableOpening score ++
          shown.map (fun scored => (Issue.ofScored scored).row) ++ ["\n## Recommendations\n"] ++
          advice)).toList)
        (shown.map fun scored => scored.finding.cells) ↔
      ∀ scored ∈ shown, ∀ cell ∈ scored.finding.cells, IsCell cell := by
  constructor
  · intro read scored member cell inside
    have listed := mem_map_of_mem (f := fun scored => scored.finding.cells) member
    rcases exists_of_forall₂_mem read listed with ⟨line, present, reads⟩
    exact reads.isCell (oneLine_of_mem_tableLines present) inside
  · intro fit
    have rows : ∀ scored ∈ shown, (Issue.ofScored scored).row.toList =
        rowLine scored.finding.cells :=
      fun scored member => toList_row (named scored member)
    rw [tableLines_joinLines, map_map, forall₂_map_left_iff, forall₂_map_right_iff,
      forall₂_same]
    · intro scored member
      rw [Function.comp_apply, rows scored member]
      exact isRow_rowLine (fit scored member)
    · rw [forall_mem_map]
      intro scored member
      rw [rows scored member]
      exact newline_notMem_rowLine (fit scored member)
    · rw [forall_mem_map]
      intro scored member
      rw [rows scored member]
      rfl

/-- The text of the report on an analysis has a row for each of the first five issues. -/
theorem text_of_plain {issues : List Issue} {scored : List ScoredFinding} (parts : Parts)
    (plain : Forall₂ (fun issue scored => Issue.ofScored scored = issue.plain) issues scored) :
    parts.text issues = joinLines (tableOpening parts.overallScore ++
      ((ranked score scored).take 5).map
        (fun scored => (Issue.ofScored scored).row) ++ ["\n## Recommendations\n"] ++
      parts.recommendations.map fun recommendation => "- " ++ recommendation) := by
  have same : issues.map Issue.plain = scored.map Issue.ofScored := by
    rw [← forall₂_eq_eq_eq, forall₂_map_left_iff, forall₂_map_right_iff]
    exact plain.imp fun _ _ => Eq.symm
  have sorted : byScore (scored.map Issue.ofScored) =
      (ranked score scored).map Issue.ofScored :=
    (map_ranked Issue.score Issue.ofScored scored).symm
  rw [← text_map_plain, same, Parts.text, sorted, ← map_take, map_map]
  rfl

/-- How the table in the text of the report on an analysis reads. -/
theorem exists_table {request : Request} {files : Files} {path : String}
    {languages : Json} {isIndexed : Bool} {analysis : Analysis}
    (done : ofRepository request files path languages isIndexed = .ok analysis)
    (hasAdvisor : Bool) (environment : Environment) (now : Moment) (world : World) :
    ∃ report text,
      ((generate hasAdvisor environment now analysis.toJson).run.run world).1 = .ok report ∧
      report.get? "markdown" = some (.str text) ∧
      (Forall₂ IsRow (tableLines text.toList)
          (((ranked score analysis.issues).take 5).map
            fun issue => issue.finding.cells) ↔
        ∀ issue ∈ (ranked score analysis.issues).take 5,
          issue.finding.IsShowable) := by
  rcases generate_analysis done hasAdvisor environment now world with
    ⟨parts, issues, ran, _, plain⟩
  rcases sourced_issues done with ⟨root, _, sourced⟩
  have found : ∀ issue ∈ (ranked score analysis.issues).take 5,
      issue.finding ∈ analysis.issues.map finding := by
    intro issue member
    apply mem_map_of_mem
    exact (ranked_perm _ _).mem_iff.mp (mem_of_mem_take member)
  refine ⟨parts.record issues, parts.text issues, ran, get?_markdown_record parts issues, ?_⟩
  rw [text_of_plain parts plain, forall₂_isRow_iff parts.overallScore _
    fun issue member => sourced.named issue.finding (found issue member)]
  refine forall₂_congr fun issue member => ?_
  rcases sourced.emission issue.finding (found issue member) with ⟨_, _, emission⟩
  exact emission.forall_isCell_iff

/-- The analysis of a directory has a result, and so has the report on it.  The text of the report
has a table, of which each line is to be read as the identifier, the severity, the place and the
message of one of the first five issues.  It can be read so, line by line and cell by cell, if and
only if the texts in these issues allow it. -/
theorem table_is_readable_iff (request : Request) (files : Files) (path : String)
    (languages : Json) (isIndexed : Bool) (root : Path) (requested : List RequestedLanguage)
    (rooted : ∃ listing, files.root = .dir listing) (located : rootOf files path = .ok root)
    (listed : RequestedLanguage.list languages = .ok requested) (hasAdvisor : Bool)
    (environment : Environment) (now : Moment) (world : World) :
    ∃ analysis report text positions shown,
      ofRepository request files path languages isIndexed = .ok analysis ∧
      ((generate hasAdvisor environment now analysis.toJson).run.run world).1 = .ok report ∧
      report.get? "markdown" = some (.str text) ∧
      IsTop 5 (Precedes ScoredFinding.score analysis.issues)
        (range analysis.issues.length) positions ∧
      Forall₂ (fun position issue => analysis.issues[position]? = some issue) positions
        shown ∧
      shown.length = min 5 analysis.issues.length ∧
      (Forall₂ IsRow (tableLines text.toList)
          (shown.map fun issue => issue.finding.cells) ↔
        ∀ issue ∈ shown, issue.finding.IsShowable) := by
  rcases ofRepository_eq request isIndexed rooted located listed with
    ⟨analysis, done, _, _⟩
  rcases exists_table done hasAdvisor environment now world with ⟨report, text, ran, told, reads⟩
  rcases exists_isTop_ranked score analysis.issues 5 with
    ⟨positions, top, placed⟩
  have count := placed.length_eq.symm.trans top.length
  rw [length_range] at count
  exact ⟨analysis, report, text, positions, _, done, ran, told, top, placed, count, reads⟩

/-- A file with a function of eleven conditions and a note, and a file that cannot be read. -/
def tangledFiles : Files :=
  ⟨.dir [("app.py", .file (.bytes (textBytes ("def tangled(a):\n  return " ++
      "a and a and a and a and a and a and a and a and a and a and a # TODO")))),
    ("broken.py", .file (.bytes (textBytes "def (")))], []⟩

/-- A request whose interpreter says more of a source that it cannot read. -/
def detailedRequest : Request :=
  { plainRequest with
    reading := ⟨⟨⟨fun _ => false, fun _ => "invalid syntax (<unknown>, line 1)"⟩,
      some fun _ node => node.complexity⟩, .absent⟩ }

/-- What is emitted for these files and a language that is not known. -/
def tangledFindings : List Finding :=
  emitted detailedRequest.reading tangledFiles [] [.python, .unknown "cobol"]

theorem isDir_tangledFiles : tangledFiles.isDir [] = true := by
  rw [isDir, stat_nil]
  rfl

/-- The findings, and that they can be shown; the digests in their identifiers are not needed. -/
theorem tangledFindings_shown :
    (tangledFindings.map fun finding =>
        [finding.severity.name, finding.location, finding.message]) =
      [["high", "app.py:1", "Function 'tangled' has high complexity (cc=11)."],
        ["low", "app.py:2", "TODO/FIXME comment found."],
        ["medium", "broken.py:None",
          "Failed to parse Python file: invalid syntax (<unknown>, line 1)"],
        ["low", "N/A", "Language 'cobol' not supported."]] ∧
      (tangledFindings.map Finding.category).Nodup ∧
      ∀ finding ∈ tangledFindings, finding.IsShowable := by
  have paths : Survey.Python.sourcePaths tangledFiles [] = [["app.py"], ["broken.py"]] := by
    rw [Survey.Python.sourcePaths, visits, stat_nil]
    decide +kernel
  have app : tangledFiles.stat ["app.py"] = .ok _ :=
    stat_singleton rfl (by decide) (if_pos rfl) rfl
  have broken : tangledFiles.stat ["broken.py"] = .ok _ :=
    stat_singleton rfl (by decide) rfl rfl
  have packages : Survey.Python.packages tangledFiles [] = [] := by
    have listing : tangledFiles.list [] = ["app.py", "broken.py"] := by
      rw [list, stat_nil]
      rfl
    simp [Survey.Python.packages, listing, isDir, app, broken]
  have untested : missingTests tangledFiles [] .python = [] := by
    simp [missingTests, Survey.Python.testingFindings, packages]
  rw [tangledFindings, emitted_cons, surveyed_eq isDir_tangledFiles, untested]
  simp only [fileFindings, surveyedFiles, paths, map_cons, map_nil,
    nil_append, readLenient, open?, app, broken]
  decide +kernel

theorem tangledFindings_kept : (distinct tangledFindings).Perm tangledFindings := by
  have categories := tangledFindings_shown.2.1
  rw [perm_ext_iff_of_nodup (nodup_map_id_distinct _).of_map categories.of_map]
  intro finding
  refine ⟨fun kept => ((mem_distinct _ _).mp kept).mem, ?_⟩
  revert finding
  rw [forall_mem_distinct_iff]
  intro first early second late same
  apply inj_on_of_nodup_map categories early late
  rcases (mem_emitted isDir_tangledFiles).mp early with ⟨_, _, _, emission⟩
  rcases (mem_emitted isDir_tangledFiles).mp late with ⟨_, _, _, other⟩
  exact emission.category_eq other same

/-- The table on these files has four lines, which can be read: one on the function, one on the
note, one on the source that cannot be read, and one on the language. -/
theorem tangledFiles_tabulated :
    RequestedLanguage.list (.texts ["py", "cobol"]) = .ok [.python, .unknown "cobol"] ∧
      ∃ analysis report text,
        ofRepository detailedRequest tangledFiles "/" (.texts ["py", "cobol"]) false =
          .ok analysis ∧
        ((generate true [] detailedRequest.now analysis.toJson).run.run failingWorld).1 =
          .ok report ∧
        report.get? "markdown" = some (.str text) ∧ (tableLines text.toList).length = 4 ∧
        ∀ cells ∈ [["high", "app.py:1", "Function 'tangled' has high complexity (cc=11)."],
            ["low", "app.py:2", "TODO/FIXME comment found."],
            ["medium", "broken.py:None",
              "Failed to parse Python file: invalid syntax (<unknown>, line 1)"],
            ["low", "N/A", "Language 'cobol' not supported."]],
          ∃ line ∈ tableLines text.toList, ∃ id : String,
            IsRow line ((id :: cells).map String.toList) := by
  have listed : RequestedLanguage.list (.texts ["py", "cobol"]) =
      .ok [.python, .unknown "cobol"] := rfl
  have rooted : ∃ listing, tangledFiles.root = .dir listing := ⟨_, rfl⟩
  have located := rootOf_slash tangledFiles rooted
  rcases table_is_readable_iff detailedRequest tangledFiles "/" (.texts ["py", "cobol"]) false [] _
    rooted located listed true [] detailedRequest.now failingWorld with
    ⟨analysis, report, text, positions, shown, done, ran, told, top, placed, count, reads⟩
  rcases ofRepository_eq detailedRequest false rooted located listed with
    ⟨other, same, issues, _⟩
  cases done.symm.trans same
  rcases tangledFindings_shown with ⟨texts, _, showable⟩
  have kept : (analysis.issues.map ScoredFinding.finding).Perm tangledFindings := by
    rw [issues, Analysis.issuesOf, map_finding_withScore]
    exact tangledFindings_kept
  have four : analysis.issues.length = 4 := by
    have rows := congrArg length texts
    rw [length_map] at rows
    rw [← length_map finding, kept.length_eq, rows]
    rfl
  have found : ∀ issue ∈ shown, issue ∈ analysis.issues := by
    intro issue member
    rcases exists_of_forall₂_mem placed member with ⟨position, _, at'⟩
    exact mem_of_getElem? at'
  have rows := reads.mpr fun issue member => showable issue.finding
    (kept.mem_iff.mp (mem_map_of_mem (found issue member)))
  refine ⟨listed, analysis, report, text, done, ran, told, ?_, ?_⟩
  · rw [rows.length_eq, length_map, count, four]
    rfl
  · intro cells member
    rw [← texts] at member
    rcases mem_map.mp member with ⟨finding, emitted, rfl⟩
    rcases mem_map.mp (kept.mem_iff.mpr emitted) with ⟨issue, inside, rfl⟩
    rcases getElem?_of_mem inside with ⟨position, stands⟩
    -- There is room for all positions, so this one is among those that are shown.
    have every : positions.Perm (range analysis.issues.length) :=
      (subperm_of_subset top.distinct top.within).perm_of_length_le (by
        rw [top.length, length_range, four]
        decide)
    have chosen : position ∈ positions := by
      rw [every.mem_iff, mem_range]
      exact (List.getElem?_eq_some_iff.mp stands).1
    have visible : issue ∈ shown := by
      rcases exists_of_forall₂_mem placed.flip chosen with ⟨other, listed, at'⟩
      cases stands.symm.trans at'
      exact listed
    have listed := mem_map_of_mem (f := fun issue => issue.finding.cells) visible
    rcases exists_of_forall₂_mem rows listed with ⟨line, present, row⟩
    exact ⟨line, present, issue.finding.id, row⟩

/-- A bar in the name of a file is taken for the end of a cell. -/
theorem barredFile_misread :
    ∃ analysis report text,
      ofRepository plainRequest (Answers.notedFile "a|b.py") "/" (.texts ["py"])
        false = .ok analysis ∧
      ((generate true [] plainRequest.now analysis.toJson).run.run failingWorld).1 =
        .ok report ∧
      report.get? "markdown" = some (.str text) ∧
      ¬ Forall₂ IsRow (tableLines text.toList)
        (((ranked score analysis.issues).take 5).map
          fun issue => issue.finding.cells) := by
  rcases @Answers.exists_analysis_notedFile "a|b.py" (by decide) (by decide) with
    ⟨analysis, done, present, only⟩
  rcases exists_table done true [] plainRequest.now failingWorld with
    ⟨report, text, ran, told, reads⟩
  refine ⟨analysis, report, text, done, ran, told, ?_⟩
  rw [reads]
  intro showable
  have some : (ranked score analysis.issues).take 5 ≠ [] := by
    intro none
    rcases take_eq_nil_iff.mp none with impossible | empty
    · cases impossible
    · exact present (Perm.nil_eq (empty ▸ ranked_perm _ _)).symm
  rcases exists_mem_of_ne_nil _ some with ⟨issue, member⟩
  have found := (ranked_perm score analysis.issues).mem_iff.mp
    (mem_of_mem_take member)
  rcases Option.map_eq_some_iff.mp (only issue found) with ⟨details, placed, named⟩
  have unmarked := ((showable issue member).file details placed).1
  rw [named] at unmarked
  exact absurd unmarked (by decide)

end Report

end CodeQuality
