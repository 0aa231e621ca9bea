import CodeQuality.Proofs.Analysis.Origin

namespace CodeQuality
namespace Analysis

/-!
When no finding is lost.

An identifier is made from where a finding stands and from what was looked for there.
It takes neither the evidence nor, for most kinds, the message.  So findings are lost
in exactly two ways: the digests of two places agree in the digits that are kept, or
one place has several findings.  The second happens to calls of one function on one
line, to constructs of one kind on one line, to duplicates first seen in one file and
to functions that begin on one line.  It never happens to notes, to files that cannot
be read, to missing tests and to languages that are not known.

Nothing is said here about digests: whether two of them agree is left open.
-/

open Survey Syntax Survey.Script Files List

/-- The line of a finding, if it has one. -/
def line? (finding : Finding) : Option Nat := finding.details.bind (·.line)

/-- What shows a finding, if anything does. -/
def evidence? (finding : Finding) : Option String := finding.details.map (·.evidence)

/-- What an identifier is made from besides the kind of the finding: the file, the line, and what
was looked for, of which the message of a security finding tells. -/
def placeOf (finding : Finding) : Option String × Option Nat × Option String :=
  (finding.file?, line? finding,
    if finding.category = .security then some finding.message else none)

/-- Findings with one identifier stand in one place. -/
def MarksApart (findings : List Finding) : Prop :=
  ∀ first ∈ findings, ∀ second ∈ findings, first.id = second.id → placeOf first = placeOf second

/-- No place has two different findings of the kinds for which that can happen. -/
structure OneFindingEach (reading : Reading) (files : Files) (root : Path)
    (requested : List RequestedLanguage) : Prop where
  /-- Calls of one dangerous function that begin on one line are shown alike. -/
  calls : .python ∈ requested → ∀ path ∈ Python.sourcePaths files root, ∀ tree,
    reading.tools.parse (sourceAt files root path) = .ok tree →
    ∀ first ∈ tree.depthFirst, ∀ second ∈ tree.depthFirst, ∀ callee,
      first.kind = .call callee → second.kind = .call callee →
      (Python.danger? callee).isSome = true → first.start.line = second.start.line →
      shownCall (sourceAt files root path) callee first =
        shownCall (sourceAt files root path) callee second
  /-- Functions that are too complex and begin on one line have one name, one complexity and one
  beginning. -/
  functions : .python ∈ requested → ∀ path ∈ Python.sourcePaths files root, ∀ tree,
    reading.tools.parse (sourceAt files root path) = .ok tree →
    ∀ first ∈ Python.functionNodes tree, ∀ second ∈ Python.functionNodes tree,
      Python.complexityLimit <
        reading.tools.complexity (sourceAt files root path) first.1 →
      Python.complexityLimit <
        reading.tools.complexity (sourceAt files root path) second.1 →
      first.1.start.line = second.1.start.line →
      first.2.name = second.2.name ∧
        reading.tools.complexity (sourceAt files root path) first.1 =
          reading.tools.complexity (sourceAt files root path) second.1 ∧
        Python.excerpt (first.1.text (sourceAt files root path)) =
          Python.excerpt (second.1.text (sourceAt files root path))
  /-- Suspicious constructs of one kind on one line of a file are shown alike. -/
  constructs : .script ∈ requested → ∀ path (position other : Nat),
    (Script.sourcePaths files root)[position]? = some path →
    (Script.sourcePaths files root)[other]? = some path →
    ∀ first ∈ (Script.reading (sourceAt files root path)
      (reading.grammar.tree? position)).2,
    ∀ second ∈ (Script.reading (sourceAt files root path)
      (reading.grammar.tree? other)).2,
      first.kind = second.kind → first.line = second.line → first.snippet = second.snippet
  /-- Bodies that stand in several places and are first seen in one file stand in as many places,
  and the places are shown alike. -/
  duplicates : .script ∈ requested →
    ∀ first ∈ Script.placesByDigest (Script.surveyAt reading.grammar files root).files,
    ∀ second ∈ Script.placesByDigest (Script.surveyAt reading.grammar files root).files,
      1 < first.2.length → 1 < second.2.length → first.2.headD "" = second.2.headD "" →
      first.2.length = second.2.length ∧
        (Json.texts first.2).render = (Json.texts second.2).render

/-! ## Notes -/

theorem le_line_of_mem_todosFrom {number : Nat} {lines : List (List Char)} {todo : Todo}
    (member : todo ∈ todosFrom number lines) : number ≤ todo.line := by
  induction lines generalizing number with
  | nil => cases member
  | cons line rest ih =>
      rw [todosFrom] at member
      by_cases marked : isTodoLine line = true
      · rw [if_pos marked] at member
        rcases mem_cons.mp member with equal | later
        · rw [equal]
        · have := ih later
          omega
      · rw [if_neg marked] at member
        have := ih member
        omega

/-- A line has at most one note. -/
theorem eq_of_mem_todosFrom {number : Nat} {lines : List (List Char)} {first second : Todo}
    (firstMember : first ∈ todosFrom number lines) (secondMember : second ∈ todosFrom number lines)
    (same : first.line = second.line) : first = second := by
  induction lines generalizing number with
  | nil => cases firstMember
  | cons line rest ih =>
      rw [todosFrom] at firstMember secondMember
      by_cases marked : isTodoLine line = true
      · rw [if_pos marked] at firstMember secondMember
        rcases mem_cons.mp firstMember with firstEqual | firstLater <;>
          rcases mem_cons.mp secondMember with secondEqual | secondLater
        · rw [firstEqual, secondEqual]
        · have := le_line_of_mem_todosFrom secondLater
          rw [firstEqual] at same
          simp only at same
          omega
        · have := le_line_of_mem_todosFrom firstLater
          rw [secondEqual] at same
          simp only at same
          omega
        · exact ih firstLater secondLater
      · rw [if_neg marked] at firstMember secondMember
        exact ih firstMember secondMember

/-! ## Files by their texts -/

section

variable {reading : Reading} {files : Files} {root : Path}

/-- The paths that are surveyed are determined by their texts. -/
theorem sourcePath_eq {isSource : String → Bool} {first second : Path}
    (whole : files.root.hasWholeNames = true)
    (firstMember : first ∈ (files.visits isKept root).flatMap fun visit =>
      (visit.files.filter isSource).map fun name => visit.path ++ [name])
    (secondMember : second ∈ (files.visits isKept root).flatMap fun visit =>
      (visit.files.filter isSource).map fun name => visit.path ++ [name])
    (same : relativeText first = relativeText second) : first = second := by
  have names : ∀ path ∈ (files.visits isKept root).flatMap fun visit =>
      (visit.files.filter isSource).map fun name => visit.path ++ [name],
      path ≠ [] ∧ ∀ name ∈ path, isWhole name = true := by
    intro path member
    rcases mem_flatMap.mp member with ⟨visit, visited, listed⟩
    rcases mem_map.mp listed with ⟨last, inside, equal⟩
    have passed := isWhole_of_mem_visits whole visited
    subst equal
    refine ⟨by simp, ?_⟩
    intro name present
    rcases mem_append.mp present with above | final
    · exact passed name (mem_append_left _ above)
    · rw [mem_singleton.mp final]
      exact passed last (mem_append_right _ (mem_filter.mp inside).1)
  exact relativeText_inj (names first firstMember).1 (names second secondMember).1
    (names first firstMember).2 (names second secondMember).2 same

/-! ## One place, one finding -/

/-- A message about a dangerous call tells what is called. -/
theorem callee_eq {first second : String} {firstDanger secondDanger : Python.Danger}
    (firstKnown : Python.danger? first = some firstDanger)
    (secondKnown : Python.danger? second = some secondDanger)
    (same : firstDanger.message = secondDanger.message) : first = second := by
  have dangerous : ∀ {callee : String} {danger : Python.Danger},
      Python.danger? callee = some danger →
      callee ∈ ["eval", "exec", "literal_eval", "system"] := by
    intro callee danger known
    rw [Python.danger?] at known
    by_contra other
    simp only [mem_cons, not_mem_nil, or_false, not_or] at other
    simp [other.1, other.2.1, other.2.2.1, other.2.2.2] at known
  have apart : ∀ first ∈ ["eval", "exec", "literal_eval", "system"],
      ∀ second ∈ ["eval", "exec", "literal_eval", "system"],
      (Python.danger? first).map Python.Danger.message =
        (Python.danger? second).map Python.Danger.message → first = second := by
    decide
  apply apart first (dangerous firstKnown) second (dangerous secondKnown)
  rw [firstKnown, secondKnown, Option.map_some, Option.map_some, same]

/-- A message about a suspicious construct tells its kind. -/
theorem suspicionKind_eq {file other : String} {first second : Suspicion}
    (same : (suspicionFinding file first).message =
      (suspicionFinding other second).message) : first.kind = second.kind := by
  have letters := congrArg String.toList same
  simp only [suspicionFinding, String.toList_append, append_cancel_left_eq,
    append_cancel_right_eq] at letters
  exact String.toList_inj.mp letters

/-- A message about a complex function tells its name and its complexity, whatever the name is. -/
theorem complexityMessage_inj {name other : String} {amount count : Nat}
    (same : "Function '" ++ name ++ "' has high complexity (cc=" ++ toString amount ++ ")." =
      "Function '" ++ other ++ "' has high complexity (cc=" ++ toString count ++ ").") :
    name = other ∧ amount = count := by
  have divided : "' has high complexity (cc=".toList =
      "' has high complexity (cc".toList ++ ['='] := by decide
  have noMark : ∀ n : Nat, '=' ∉ (toString n).toList := Text.notMem_numeral (by decide)
  have letters := congrArg String.toList same
  simp only [String.toList_append] at letters
  have cut := append_cancel_right letters
  rw [divided, ← append_assoc, ← append_assoc, append_assoc _ ['='],
    append_assoc _ ['=']] at cut
  rcases Text.append_mark_inj (noMark amount) (noMark count) cut with ⟨before, digits⟩
  have names := append_cancel_left (append_cancel_right before)
  exact ⟨String.toList_inj.mp names, Text.numeral_inj.mp (String.toList_inj.mp digits)⟩

/-- A note is determined by the text of its path and by its line. -/
theorem note_eq {isSource : String → Bool} {first second : Path} {todo other : Todo}
    (whole : files.root.hasWholeNames = true)
    (firstMember : first ∈ (files.visits isKept root).flatMap fun visit =>
      (visit.files.filter isSource).map fun name => visit.path ++ [name])
    (secondMember : second ∈ (files.visits isKept root).flatMap fun visit =>
      (visit.files.filter isSource).map fun name => visit.path ++ [name])
    (inside : todo ∈ todos (sourceAt files root first))
    (within : other ∈ todos (sourceAt files root second))
    (texts : relativeText first = relativeText second)
    (lines : todo.line = other.line) : first = second ∧ todo = other := by
  have same := sourcePath_eq whole firstMember secondMember texts
  subst same
  exact ⟨rfl, eq_of_mem_todosFrom inside within lines⟩

/-- The kinds of which one place can have several findings. -/
def Kind.recurs : Kind → Bool
  | .complexity => true
  | .danger => true
  | .suspicion => true
  | .duplication => true
  | _ => false

variable {first second : Finding} {other language : RequestedLanguage} {kind : Kind}
  {requested : List RequestedLanguage}

/-- One place has at most one finding of the other kinds. -/
theorem Emission.eq_of_place (whole : files.root.hasWholeNames = true)
    (emission : Emission reading files root language kind first)
    (another : Emission reading files root other kind second) (single : kind.recurs = false)
    (ids : first.id = second.id) (places : placeOf first = placeOf second) : first = second := by
  cases emission with
  | @parsing path fault member failed =>
      cases another with
      | @parsing second _ there again =>
          have same : path = second := sourcePath_eq whole member there
            (Option.some.inj (congrArg Prod.fst places))
          subst same
          cases failed.symm.trans again
          rfl
  | note member parsed inside =>
      cases another with
      | note there again within =>
          rcases note_eq whole member there inside within (Option.some.inj (congrArg Prod.fst
            places)) (Option.some.inj (congrArg (fun place => place.2.1) places)) with ⟨path, todo⟩
          rw [path, todo]
  | package untested member =>
      cases another with
      | package _ there =>
          rw [absoluteText_concat_inj (Option.some.inj (congrArg Prod.fst places))]
  | scriptNote member inside =>
      cases another with
      | scriptNote there within =>
          rcases note_eq whole member there inside within (Option.some.inj (congrArg Prod.fst
            places)) (Option.some.inj (congrArg (fun place => place.2.1) places)) with ⟨path, todo⟩
          rw [path, todo]
  | scripts untested =>
      cases another
      rfl
  | language =>
      cases another with
      | language =>
          have letters := congrArg String.toList ids
          simp only [languageFinding, String.toList_append, append_cancel_left_eq] at letters
          rw [String.toList_inj.mp letters]
  | _ => cases single

/-- Where each place has one finding of the kinds that recur, findings of such a kind in one place
are equal. -/
theorem OneFindingEach.eq_of_place (each : OneFindingEach reading files root requested)
    (whole : files.root.hasWholeNames = true) (asked : language ∈ requested)
    (emission : Emission reading files root language kind first)
    (another : Emission reading files root other kind second) (recurring : kind.recurs = true)
    (places : placeOf first = placeOf second) : first = second := by
  cases emission with
  | @complexity path tree node signature member parsed inside complex =>
      cases another with
      | @complexity second _ otherNode otherSignature there again within tooComplex =>
          have same : path = second := sourcePath_eq whole member there
            (Option.some.inj (congrArg Prod.fst places))
          subst same
          cases parsed.symm.trans again
          have lines : node.start.line = otherNode.start.line :=
            Option.some.inj (congrArg (fun place => place.2.1) places)
          rcases each.functions asked path member tree parsed _ inside _ within complex tooComplex
            lines with ⟨name, amount, beginning⟩
          simp only [Python.complexityFinding, Python.functionEntry] at name amount beginning ⊢
          rw [lines, name, amount, beginning]
  | @danger path tree node callee danger member parsed inside called known =>
      cases another with
      | @danger second _ otherNode otherCallee otherDanger there again within calledToo knownToo =>
          have same : path = second := sourcePath_eq whole member there
            (Option.some.inj (congrArg Prod.fst places))
          subst same
          cases parsed.symm.trans again
          have lines : node.start.line = otherNode.start.line :=
            Option.some.inj (congrArg (fun place => place.2.1) places)
          have messages : danger.message = otherDanger.message :=
            Option.some.inj (congrArg (fun place => place.2.2) places)
          cases callee_eq known knownToo messages
          cases known.symm.trans knownToo
          have shown := each.calls asked path member tree parsed node inside otherNode within callee
            called calledToo (by rw [known]; rfl) lines
          rw [callFinding, callFinding, lines, shown]
  | @suspicion position path suspicion member inside =>
      cases another with
      | @suspicion otherPosition second otherSuspicion there within =>
          have same : path = second := sourcePath_eq whole (mem_of_getElem? member)
            (mem_of_getElem? there) (Option.some.inj (congrArg Prod.fst places))
          subst same
          have lines : suspicion.line = otherSuspicion.line :=
            Option.some.inj (congrArg (fun place => place.2.1) places)
          have kinds : suspicion.kind = otherSuspicion.kind := suspicionKind_eq
            (Option.some.inj (congrArg (fun place => place.2.2) places))
          have snippets := each.constructs asked path position otherPosition member there _ inside _
            within kinds lines
          rw [Script.suspicionFinding, Script.suspicionFinding, lines, kinds, snippets]
  | @duplication digest spread member several =>
      cases another with
      | @duplication _ otherSpread there severalToo =>
          have heads : spread.headD "" = otherSpread.headD "" :=
            Option.some.inj (congrArg Prod.fst places)
          rcases each.duplicates asked _ member _ there several severalToo heads with
            ⟨lengths, shown⟩
          simp only [Script.duplicationFinding] at lengths shown ⊢
          rw [heads, lengths, shown]
  | _ => cases recurring

/-- What can be seen of a finding: its file and its line, its message and what shows it. -/
def shownOf (finding : Finding) : Option String × Option Nat × String × Option String :=
  (finding.file?, line? finding, finding.message, evidence? finding)

/-- What there is of a finding besides what can be seen: how it is judged. -/
def judgementOf (finding : Finding) : Category × Severity × Option String :=
  (finding.category, finding.severity, finding.details.map (·.suggestedFix))

theorem eq_of_shown_of_judgement (ids : first.id = second.id)
    (shown : shownOf first = shownOf second) (judged : judgementOf first = judgementOf second) :
    first = second := by
  rcases first with ⟨id, category, severity, message, details⟩
  rcases second with ⟨id', category', severity', message', details'⟩
  rcases details with _ | ⟨file, line, evidence, fix⟩ <;>
    rcases details' with _ | ⟨file', line', evidence', fix'⟩ <;>
    simp_all [shownOf, judgementOf, line?, evidence?, Finding.file?]

/-- Findings of one kind with one identifier are equal if they look alike: the kind, or the message
where that depends on more, says how they are judged. -/
theorem Emission.eq_of_shown (emission : Emission reading files root language kind first)
    (another : Emission reading files root other kind second) (ids : first.id = second.id)
    (shown : shownOf first = shownOf second) : first = second := by
  apply eq_of_shown_of_judgement ids shown
  have messages : first.message = second.message := congrArg (fun seen => seen.2.2.1) shown
  cases emission with
  | danger member parsed inside called known =>
      cases another with
      | danger there again within calledToo knownToo =>
          cases callee_eq known knownToo messages
          cases known.symm.trans knownToo
          simp only [judgementOf, callFinding, Option.map_some]
  | suspicion member inside =>
      cases another with
      | suspicion there within =>
          have kinds := suspicionKind_eq messages
          simp only [judgementOf, suspicionFinding, Option.map_some, kinds]
  | _ =>
      cases another
      simp only [judgementOf, Python.parsingFinding, Python.complexityFinding, Python.todoFinding,
        Python.testingFinding, todoFinding, duplicationFinding, testingFinding,
        languageFinding, Option.map_some, Option.map_none]

/-- If findings with one identifier are equal, each place has one finding of the kinds that can
recur: such findings have one identifier. -/
theorem OneFindingEach.of_unique (isRepository : files.isDir root = true)
    (unique : ∀ first ∈ emitted reading files root requested,
      ∀ second ∈ emitted reading files root requested, first.id = second.id → first = second) :
    OneFindingEach reading files root requested := by
  have equal : ∀ {language : RequestedLanguage} {kind : Kind} {first second : Finding},
      language ∈ requested → Emission reading files root language kind first →
      Emission reading files root language kind second → first.id = second.id →
      first = second := by
    intro language kind first second asked emission another
    exact unique first ((mem_emitted isRepository).mpr ⟨language, asked, kind, emission⟩) second
      ((mem_emitted isRepository).mpr ⟨language, asked, kind, another⟩)
  constructor
  · intro asked path member tree parsed first firstInside second secondInside callee firstCalled
      secondCalled dangerous lines
    rcases Option.isSome_iff_exists.mp dangerous with ⟨danger, known⟩
    have same := equal asked (.danger member parsed firstInside firstCalled known)
      (.danger member parsed secondInside secondCalled known) (by rw [callFinding, callFinding, lines])
    exact Option.some.inj (congrArg evidence? same)
  · intro asked path member tree parsed first firstInside second secondInside firstComplex
      secondComplex lines
    have same := equal asked (.complexity member parsed firstInside firstComplex)
      (.complexity member parsed secondInside secondComplex)
      (by simp only [Python.complexityFinding, Python.functionEntry, lines])
    rcases complexityMessage_inj (congrArg Finding.message same) with ⟨names, amounts⟩
    exact ⟨names, amounts, Option.some.inj (congrArg evidence? same)⟩
  · intro asked path position other firstMember secondMember first firstInside second secondInside
      kinds lines
    have same := equal asked (.suspicion firstMember firstInside)
      (.suspicion secondMember secondInside) (by rw [Script.suspicionFinding,
        Script.suspicionFinding, kinds, lines])
    exact Option.some.inj (congrArg evidence? same)
  · rintro asked ⟨firstDigest, first⟩ firstMember ⟨secondDigest, second⟩ secondMember firstSeveral
      secondSeveral heads
    have same := equal asked (.duplication firstMember firstSeveral)
      (.duplication secondMember secondSeveral)
      (by simp only [Script.duplicationFinding] at heads ⊢; rw [heads])
    have letters := congrArg (fun finding => finding.message.toList) same
    simp only [Script.duplicationFinding, String.toList_append, append_cancel_left_eq,
      append_cancel_right_eq] at letters
    exact ⟨Text.numeral_inj.mp (String.toList_inj.mp letters),
      Option.some.inj (congrArg evidence? same)⟩

/-! ## Nothing is lost -/

/-- Findings with one identifier are equal exactly when marks are apart and each place has one
finding. -/
theorem unique_iff (isRepository : files.isDir root = true)
    (whole : files.root.hasWholeNames = true) :
    (∀ first ∈ emitted reading files root requested,
      ∀ second ∈ emitted reading files root requested, first.id = second.id → first = second) ↔
      MarksApart (emitted reading files root requested) ∧
        OneFindingEach reading files root requested := by
  constructor
  · intro unique
    refine ⟨?_, OneFindingEach.of_unique isRepository unique⟩
    intro first firstMember second secondMember ids
    exact congrArg placeOf (unique first firstMember second secondMember ids)
  · rintro ⟨apart, each⟩ first firstMember second secondMember ids
    rcases (mem_emitted isRepository).mp firstMember with ⟨language, asked, kind, emission⟩
    rcases (mem_emitted isRepository).mp secondMember with ⟨other, _, kind', another⟩
    cases emission.kind_eq another ids
    have places := apart first firstMember second secondMember ids
    cases recurring : kind.recurs with
    | false => exact emission.eq_of_place whole another recurring ids places
    | true => exact each.eq_of_place whole asked emission another recurring places

/-- Findings with one identifier are equal exactly when they look alike. -/
theorem unique_iff_shown (isRepository : files.isDir root = true) :
    (∀ first ∈ emitted reading files root requested,
      ∀ second ∈ emitted reading files root requested, first.id = second.id → first = second) ↔
      ∀ first ∈ emitted reading files root requested,
        ∀ second ∈ emitted reading files root requested, first.id = second.id →
          shownOf first = shownOf second := by
  constructor
  · intro unique first firstMember second secondMember ids
    rw [unique first firstMember second secondMember ids]
  · intro alike first firstMember second secondMember ids
    rcases (mem_emitted isRepository).mp firstMember with ⟨language, _, kind, emission⟩
    rcases (mem_emitted isRepository).mp secondMember with ⟨other, _, kind', another⟩
    cases emission.kind_eq another ids
    exact emission.eq_of_shown another ids (alike first firstMember second secondMember ids)

end

/-- When nothing is lost.  An analysis has a result, and all findings of its surveys are among the
issues exactly when findings that look different have different identifiers.  Both are the case
exactly when no two places have one mark, and no place has two different findings of the kinds for
which that can happen. -/
theorem issues_keep_findings_iff (request : Request) (files : Files) (path : String)
    (languages : Json) (isIndexed : Bool) (root : Path) (requested : List RequestedLanguage)
    (rooted : ∃ listing, files.root = .dir listing) (whole : files.root.hasWholeNames = true)
    (located : rootOf files path = .ok root)
    (listed : RequestedLanguage.list languages = .ok requested) :
    ∃ analysis, ofRepository request files path languages isIndexed = .ok analysis ∧
      ((∀ finding ∈ emitted request.reading files root requested,
          finding ∈ analysis.issues.map ScoredFinding.finding) ↔
        MarksApart (emitted request.reading files root requested) ∧
          OneFindingEach request.reading files root requested) ∧
      ((∀ first ∈ emitted request.reading files root requested,
          ∀ second ∈ emitted request.reading files root requested, first.id = second.id →
            first.file? = second.file? ∧ line? first = line? second ∧
              first.message = second.message ∧ evidence? first = evidence? second) ↔
        MarksApart (emitted request.reading files root requested) ∧
          OneFindingEach request.reading files root requested) := by
  have isRepository := isDir_of_rootOf rooted located
  rcases ofRepository_eq request isIndexed rooted located listed with ⟨analysis, done, issues, _⟩
  refine ⟨analysis, done, ?_, ?_⟩
  · rw [issues, issuesOf, map_finding_withScore, forall_mem_distinct_iff,
      unique_iff isRepository whole]
  · rw [← unique_iff isRepository whole, unique_iff_shown isRepository]
    simp only [shownOf, Prod.mk.injEq]

/-- A script with two calls on its only line. -/
def repeatedCallFiles : Files :=
  ⟨.dir [("page.js", .file (.bytes (textBytes "eval(a); eval(b)")))], []⟩

/-- The script with the two calls, with its language asked for twice and one that is not known. -/
theorem repeatedCallFiles_keep_iff :
    RequestedLanguage.list (.texts ["js", "cobol", "js"]) =
        .ok [.script, .unknown "cobol", .script] ∧
      ∃ analysis, ofRepository plainRequest repeatedCallFiles "/" (.texts ["js", "cobol", "js"])
          false = .ok analysis ∧
        ((∀ finding ∈ emitted plainRequest.reading repeatedCallFiles []
            [.script, .unknown "cobol", .script],
            finding ∈ analysis.issues.map ScoredFinding.finding) ↔
          MarksApart (emitted plainRequest.reading repeatedCallFiles []
              [.script, .unknown "cobol", .script]) ∧
            OneFindingEach plainRequest.reading repeatedCallFiles []
              [.script, .unknown "cobol", .script]) := by
  have listed : RequestedLanguage.list (.texts ["js", "cobol", "js"]) =
      .ok [.script, .unknown "cobol", .script] := rfl
  rcases issues_keep_findings_iff plainRequest repeatedCallFiles "/" (.texts ["js", "cobol", "js"])
    false [] _ ⟨_, rfl⟩ (by decide) (rootOf_slash _ ⟨_, rfl⟩) listed with ⟨analysis, done, kept, _⟩
  exact ⟨listed, analysis, done, kept⟩

theorem repeatedCallFiles_sourcePaths : sourcePaths repeatedCallFiles [] = [["page.js"]] := by
  rw [sourcePaths, visits, stat_nil]
  decide +kernel

theorem repeatedCallFiles_sourceAt :
    sourceAt repeatedCallFiles [] ["page.js"] = "eval(a); eval(b)".toList := by
  have reached : repeatedCallFiles.stat ["page.js"] =
      .ok (.file (.bytes (textBytes "eval(a); eval(b)"))) :=
    stat_singleton rfl (by decide) (if_pos rfl) rfl
  rw [sourceAt, nil_append, readLenient, open?, reached]
  decide +kernel

/-- Of two calls on one line one is lost: they have one identifier, and what shows them differs. -/
theorem repeatedCallFiles_lose :
    ∃ analysis, ofRepository plainRequest repeatedCallFiles "/" (.texts ["js"]) false =
        .ok analysis ∧
      (∃ first ∈ emitted plainRequest.reading repeatedCallFiles [] [.script],
        ∃ second ∈ emitted plainRequest.reading repeatedCallFiles [] [.script],
          first.id = second.id ∧ evidence? first ≠ evidence? second) ∧
      ∃ finding ∈ emitted plainRequest.reading repeatedCallFiles [] [.script],
        finding ∉ analysis.issues.map ScoredFinding.finding := by
  have isRepository : repeatedCallFiles.isDir [] = true := by
    rw [isDir, stat_nil]
    rfl
  have found : ∀ suspicion ∈ [(⟨"eval", 1, "eval(a); eval(b)"⟩ : Suspicion), ⟨"eval", 1, "eval(b)"⟩],
      suspicionFinding (relativeText ["page.js"]) suspicion ∈
        emitted plainRequest.reading repeatedCallFiles [] [.script] := by
    intro suspicion member
    have inside : suspicion ∈ (reading (sourceAt repeatedCallFiles [] ["page.js"])
        (plainRequest.reading.grammar.tree? 0)).2 := by
      rw [repeatedCallFiles_sourceAt]
      revert suspicion
      decide +kernel
    have listed : (sourcePaths repeatedCallFiles [])[0]? = some ["page.js"] := by
      rw [repeatedCallFiles_sourcePaths]
      rfl
    exact (mem_emitted isRepository).mpr ⟨.script, mem_singleton_self _, .suspicion,
      .suspicion listed inside⟩
  have first := found _ (mem_cons_self ..)
  have second := found _ (mem_cons_of_mem _ (mem_cons_self ..))
  have differ : evidence? (suspicionFinding (relativeText ["page.js"])
        ⟨"eval", 1, "eval(a); eval(b)"⟩) ≠
      evidence? (suspicionFinding (relativeText ["page.js"])
        ⟨"eval", 1, "eval(b)"⟩) := by
    simp only [evidence?, suspicionFinding, Option.map_some]
    decide
  have listed : RequestedLanguage.list (.texts ["js"]) = .ok [.script] := rfl
  rcases ofRepository_eq plainRequest false ⟨_, rfl⟩ (rootOf_slash repeatedCallFiles ⟨_, rfl⟩)
    listed with ⟨analysis, done, issues, _⟩
  refine ⟨analysis, done, ⟨_, first, _, second, rfl, differ⟩, ?_⟩
  by_contra kept
  simp only [not_exists, not_and, not_not] at kept
  rw [issues, issuesOf, map_finding_withScore, forall_mem_distinct_iff] at kept
  exact differ (congrArg evidence? (kept _ first _ second rfl))

end Analysis
end CodeQuality
