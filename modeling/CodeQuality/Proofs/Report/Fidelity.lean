import CodeQuality.Proofs.Analysis.Origin
import CodeQuality.Proofs.Report.Generation

namespace CodeQuality

/-!
Reports are faithful to analyses.

A report reads the record of an analysis, which it did not make: it rebuilds every
issue with defaults of its own, counts files anew and scores everything a second time.
For the record of an analysis all this comes to the same.  What makes it so is that a
finding either has no file at all or one with a name, since a report takes an empty
name for none; that no finding says how often it occurs; and that the severities of
findings are written in small letters.
-/

/-! ## Counting texts -/

namespace Json

/-- Only the value itself is taken for this key.  Texts are so, and numbers are not. -/
def IsExact (key : Json) : Prop := ∀ own, same own key = true ↔ own = key

theorem isExact_null : IsExact .null := by
  intro own
  cases own <;> simp [same, sameScalar, wholeNumber?]

theorem isExact_str (text : String) : IsExact (.str text) := by
  intro own
  cases own <;> simp [same, sameScalar, wholeNumber?]

section

variable {wanted : Json} (exact : IsExact wanted)

include exact

theorem findPair?_updatePair {α : Type} {key : Json} (keyExact : IsExact key)
    (change : Option α → α) (pairs : List (Json × α)) :
    findPair? wanted (updatePair key change pairs) =
      if same key wanted then some (change (findPair? wanted pairs))
      else findPair? wanted pairs := by
  induction pairs with
  | nil => rfl
  | cons pair rest ih =>
      rcases pair with ⟨own, value⟩
      by_cases here : same own key = true
      · have equal := (keyExact own).mp here
        subst equal
        by_cases found : same own wanted = true
        · simp only [updatePair, findPair?, here, found, if_true]
        · simp only [updatePair, findPair?, here, found, if_true, if_false, Bool.false_eq_true]
      · by_cases found : same own wanted = true
        · have other : ¬ same key wanted = true := by
            intro equal
            have both : own = key := ((exact own).mp found).trans ((exact key).mp equal).symm
            exact here ((keyExact own).mpr both)
          simp only [updatePair, findPair?, here, found, other, if_true, if_false,
            Bool.false_eq_true]
        · simp only [updatePair, findPair?, here, found, ih, if_false, Bool.false_eq_true]

/-- A key has the number of times that it occurs. -/
theorem findPair?_tally {keys : List Json} (keysExact : ∀ key ∈ keys, IsExact key) :
    (findPair? wanted (tally keys)).getD 1 = max 1 (keys.countP fun key => same key wanted) := by
  have from_start : ∀ counts : List (Json × Nat),
      findPair? wanted (keys.foldl (fun counts key =>
        updatePair key (fun count => count.getD 0 + 1) counts) counts) =
      if keys.countP (fun key => same key wanted) = 0 then findPair? wanted counts
      else some ((findPair? wanted counts).getD 0 + keys.countP fun key => same key wanted) := by
    induction keys with
    | nil =>
        intro counts
        rfl
    | cons key rest ih =>
        intro counts
        rw [List.foldl_cons, ih fun other member => keysExact other (List.mem_cons_of_mem _ member),
          findPair?_updatePair exact (keysExact key List.mem_cons_self), List.countP_cons]
        by_cases found : same key wanted = true
        · by_cases none : rest.countP (fun key => same key wanted) = 0
          · simp [found, none]
          · simp [found, none]
            omega
        · simp [found]
  rw [tally, from_start]
  by_cases none : keys.countP (fun key => same key wanted) = 0
  · rw [if_pos none, none]
    rfl
  · rw [if_neg none, show findPair? wanted ([] : List (Json × Nat)) = Option.none from rfl,
      Option.getD_some, Option.getD_none]
    omega

end

end Json

/-! ## Files have names -/

namespace Analysis

open Survey List

/-- The text of a source path ends in the name of a source, which is not empty. -/
theorem relativeText_ne_empty {isSource : String → Bool} (nameless : isSource "" = false)
    {visits : List Files.Visit} {path : Files.Path} (member : path ∈ visits.flatMap fun visit =>
      (visit.files.filter isSource).map fun name => visit.path ++ [name]) :
    Files.relativeText path ≠ "" := by
  rcases mem_flatMap.mp member with ⟨visit, _, inside⟩
  rcases mem_map.mp inside with ⟨name, chosen, located⟩
  rcases Files.relativeText_concat visit.path name with ⟨front, text⟩
  intro empty
  rw [located, empty, String.toList_empty] at text
  have blank : name = "" := String.toList_eq_nil_iff.mp (append_eq_nil_iff.mp text.symm).2
  rw [blank, mem_filter, nameless] at chosen
  cases chosen.2

theorem absoluteText_ne_empty (path : Files.Path) : Files.absoluteText path ≠ "" := by
  intro empty
  have letters := congrArg String.toList empty
  rw [Files.absoluteText, String.toList_append] at letters
  cases letters

theorem mem_of_mem_addPlace {digest file : String} {pairs : List (String × List String)}
    {entry : String × List String} (member : entry ∈ Script.addPlace digest file pairs)
    {place : String} (inside : place ∈ entry.2) :
    place = file ∨ ∃ other ∈ pairs, place ∈ other.2 := by
  induction pairs with
  | nil =>
      rw [Script.addPlace, mem_singleton] at member
      rw [member] at inside
      exact Or.inl (mem_singleton.mp inside)
  | cons pair rest ih =>
      rcases pair with ⟨own, places⟩
      rw [Script.addPlace] at member
      split at member
      · rcases mem_cons.mp member with here | below
        · rw [here] at inside
          rcases mem_append.mp inside with old | new
          · exact Or.inr ⟨(own, places), List.mem_cons_self, old⟩
          · exact Or.inl (mem_singleton.mp new)
        · exact Or.inr ⟨entry, List.mem_cons_of_mem _ below, inside⟩
      · rcases mem_cons.mp member with here | below
        · exact Or.inr ⟨entry, here ▸ List.mem_cons_self, inside⟩
        · rcases ih below with new | ⟨other, listed, old⟩
          · exact Or.inl new
          · exact Or.inr ⟨other, List.mem_cons_of_mem _ listed, old⟩

/-- The places of a digest are files that are reported on. -/
theorem mem_of_mem_placesByDigest {reports : List (String × FileReport)}
    {entry : String × List String} (member : entry ∈ Script.placesByDigest reports)
    {place : String} (inside : place ∈ entry.2) : place ∈ reports.map Prod.fst := by
  have from_start : ∀ (found : List (String × String)) (pairs : List (String × List String)),
      entry ∈ found.foldl (fun places pair => Script.addPlace pair.1 pair.2 places) pairs →
        place ∈ found.map Prod.snd ∨ ∃ other ∈ pairs, place ∈ other.2 := by
    intro found
    induction found with
    | nil =>
        intro pairs member
        exact Or.inr ⟨entry, member, inside⟩
    | cons first rest ih =>
        intro pairs member
        rcases ih _ member with later | ⟨other, listed, old⟩
        · exact Or.inl (List.mem_cons_of_mem _ later)
        · rcases mem_of_mem_addPlace listed old with new | before
          · exact Or.inl (new ▸ List.mem_cons_self)
          · exact Or.inr before
  rcases from_start _ [] member with found | ⟨_, impossible, _⟩
  · rcases mem_map.mp found with ⟨pair, listed, equal⟩
    rcases mem_flatMap.mp listed with ⟨⟨file, report⟩, known, digests⟩
    rcases mem_map.mp digests with ⟨digest, _, made⟩
    rw [← equal, ← made]
    exact mem_map_of_mem known
  · cases impossible

section

variable {reading : Reading} {files : Files} {root : Files.Path}

theorem Emission.file_ne_empty {language : RequestedLanguage} {kind : Kind} {finding : Finding}
    (emission : Emission reading files root language kind finding) {file : String}
    (placed : finding.file? = some file) : file ≠ "" := by
  have nameless : Files.endsWith ".py" "" = false ∧ Script.isScript "" = false := by decide +kernel
  cases emission with
  | parsing member => exact Option.some.inj placed ▸ relativeText_ne_empty nameless.1 member
  | complexity member => exact Option.some.inj placed ▸ relativeText_ne_empty nameless.1 member
  | note member => exact Option.some.inj placed ▸ relativeText_ne_empty nameless.1 member
  | danger member => exact Option.some.inj placed ▸ relativeText_ne_empty nameless.1 member
  | package => exact Option.some.inj placed ▸ absoluteText_ne_empty _
  | scriptNote member => exact Option.some.inj placed ▸ relativeText_ne_empty nameless.2 member
  | suspicion member =>
      exact Option.some.inj placed ▸
        relativeText_ne_empty nameless.2 (mem_of_getElem? member)
  | @duplication digest places member several =>
      cases places with
      | nil => cases several
      | cons place rest =>
          have known := mem_of_mem_placesByDigest member List.mem_cons_self
          rcases mem_map.mp known with ⟨_, listed, equal⟩
          rcases mem_map.mp listed with ⟨_, surveyed, made⟩
          rcases mem_mapIdx.mp surveyed with ⟨position, inRange, spelled⟩
          rw [← show place = file from Option.some.inj placed, ← equal, ← made, ← spelled]
          exact relativeText_ne_empty nameless.2 (getElem_mem inRange)
  | scripts => exact Option.some.inj placed ▸ absoluteText_ne_empty _
  | language => cases placed

/-- Whether every finding that has a file has one with a name. -/
def Named (findings : List Finding) : Prop :=
  ∀ finding ∈ findings, ∀ file, finding.file? = some file → file ≠ ""

theorem named_distinct_emitted (isRepository : files.isDir root = true)
    (requested : List RequestedLanguage) :
    Named (distinct (emitted reading files root requested)) := by
  intro finding member file placed
  have found := ((mem_distinct _ finding).mp member).mem
  rcases (mem_emitted isRepository).mp found with ⟨_, _, _, emission⟩
  exact emission.file_ne_empty placed

end

end Analysis

namespace Report

/-! ## The records of findings -/

/-- The issue that the record of a scored finding describes. -/
def Issue.ofScored (scored : ScoredFinding) : Issue :=
  let details := scored.finding.details
  { id := .str scored.finding.id
    category := .str scored.finding.category.name
    severity := scored.finding.severity.name
    score := scored.score
    file := (details.map fun details => .str details.file).getD .null
    line := (details.map fun details => .ofNat? details.line).getD .null
    message := .str scored.finding.message
    suggestedFix := (details.map fun details => .str details.suggestedFix).getD
      (.str "Review and fix as appropriate")
    evidence := (details.map fun details => .str details.evidence).getD .null
    explanation := none }

theorem lowerString_name (severity : Severity) :
    Text.lowerString severity.name = severity.name := by
  cases severity <;> decide +kernel

theorem ofRecord_toJson (scored : ScoredFinding) :
    Issue.ofRecord scored.toJson = .ok (Issue.ofScored scored) := by
  cases details : scored.finding.details with
  | none =>
      simp [Issue.ofRecord, ScoredFinding.toJson, Finding.members, details, Json.member, Json.get?,
        Json.lookup?, Json.lowered, lowerString_name, Json.toInteger, Issue.ofScored, bind,
        Except.bind, pure, Except.pure]
  | some place =>
      simp [Issue.ofRecord, ScoredFinding.toJson, Finding.members, details, Json.member, Json.get?,
        Json.lookup?, Json.lowered, lowerString_name, Json.toInteger, Issue.ofScored, bind,
        Except.bind, pure, Except.pure]

/-! ## Heat and scores -/

open Analysis (Named withScore hotness hotnessOf)

/-- The files of findings, with repetitions. -/
def filesOf (findings : List Finding) : List String := findings.filterMap Finding.file?

theorem file_ofScored (scored : ScoredFinding) :
    (Issue.ofScored scored).file = (scored.finding.file?.map Json.str).getD .null := by
  rw [Finding.file?, Option.map_map]
  rfl

theorem fileCounts_ofScored {issues : List ScoredFinding}
    (named : Named (issues.map ScoredFinding.finding)) :
    fileCounts (issues.map Issue.ofScored) =
      .ok (Json.tally ((filesOf (issues.map ScoredFinding.finding)).map .str)) := by
  have keys : ((issues.map Issue.ofScored).map Issue.file).filter Json.isTruthy =
      (filesOf (issues.map ScoredFinding.finding)).map .str := by
    induction issues with
    | nil => rfl
    | cons issue rest ih =>
        have below := ih fun other member => named other (List.mem_cons_of_mem _ member)
        rw [List.map_cons, List.map_cons, List.filter_cons, file_ofScored, below, List.map_cons,
          filesOf, filesOf, List.filterMap_cons]
        cases placed : issue.finding.file? with
        | none => rfl
        | some file =>
            have truthy : (Json.str file).isTruthy = true := by
              rw [Json.isTruthy, Bool.not_eq_true', String.isEmpty_eq_false_iff]
              exact named issue.finding List.mem_cons_self file placed
            rw [Option.map_some, Option.getD_some, if_pos truthy, List.map_cons]
  have hashed : ((filesOf (issues.map ScoredFinding.finding)).map Json.str).mapM Json.asKey =
      .ok ((filesOf (issues.map ScoredFinding.finding)).map Json.str) := by
    rw [List.mapM_map]
    exact Outcome.mapM_eq_ok fun file _ => rfl
  rw [fileCounts, keys, hashed]
  rfl

/-- A file is as hot as it is counted. -/
theorem countP_filesOf (findings : List Finding) (file : String) :
    ((filesOf findings).map Json.str).countP (fun key => Json.same key (.str file)) =
      hotness findings file := by
  rw [List.countP_map, filesOf, List.countP_filterMap, hotness]
  apply List.countP_congr
  intro finding _
  cases placed : finding.file? with
  | none => simp
  | some other => simp [(Json.isExact_str file) (.str other)]

variable {findings : List Finding}

/-- The heat that is looked up for a finding is the number of findings of its file.  A finding
without a file is looked up under null, which no file is. -/
theorem findPair?_filesOf {finding : Finding} (member : finding ∈ findings) :
    ∃ key, ((finding.file?.map Json.str).getD .null).asKey = .ok key ∧
      (Json.findPair? key (Json.tally ((filesOf findings).map .str))).getD 1 =
        hotnessOf findings finding := by
  have exact : ∀ key ∈ (filesOf findings).map Json.str, key.IsExact := by
    intro key listed
    rcases List.mem_map.mp listed with ⟨file, _, equal⟩
    exact equal ▸ Json.isExact_str file
  rw [hotnessOf]
  cases placed : finding.file? with
  | none =>
      refine ⟨.null, rfl, ?_⟩
      have absent : ((filesOf findings).map Json.str).countP
          (fun key => Json.same key .null) = 0 := by
        rw [List.countP_map, List.countP_eq_zero]
        intro file _ equal
        cases (Json.isExact_null (.str file)).mp equal
      rw [Json.findPair?_tally Json.isExact_null exact, absent]
      rfl
  | some file =>
      refine ⟨.str file, rfl, ?_⟩
      -- the finding itself is counted, so one is not the default here
      have counted : 0 < hotness findings file :=
        List.countP_pos_iff.mpr ⟨finding, member, decide_eq_true placed⟩
      rw [Json.findPair?_tally (Json.isExact_str file) exact, countP_filesOf]
      exact Nat.max_eq_right counted

/-- The second score of a finding is the first one. -/
theorem scored_ofScored {finding : Finding} (member : finding ∈ findings) :
    Issue.scored (Json.tally ((filesOf findings).map .str))
        (Issue.ofScored (withScore findings finding)) =
      .ok (Issue.ofScored (withScore findings finding)) := by
  rcases findPair?_filesOf member with ⟨key, known, found⟩
  have hashed : (Issue.ofScored (withScore findings finding)).file.asKey = .ok key := by
    rw [file_ofScored]
    exact known
  have score : Score.ofIssue (Issue.ofScored (withScore findings finding)).toJson
      (.nat (hotnessOf findings finding)) Score.neutralWeight =
      .ok (withScore findings finding).score := by
    apply Score.ofIssue_of_lookup
    · simp [Json.lookup?, Issue.ofScored, withScore]
    · simp [Json.lookup?, Issue.ofScored]
  rw [Issue.scored, hashed]
  simp only [bind, Except.bind, found, score]
  rfl

/-- The issues of a report on an analysis are those of the analysis. -/
theorem issuesOf_toJson (named : Named findings) :
    issuesOf ((findings.map (withScore findings)).map ScoredFinding.toJson) =
      .ok ((findings.map (withScore findings)).map Issue.ofScored) := by
  have read : ((findings.map (withScore findings)).map ScoredFinding.toJson).mapM Issue.ofRecord =
      .ok ((findings.map (withScore findings)).map Issue.ofScored) := by
    rw [List.mapM_map]
    exact Outcome.mapM_eq_ok fun scored _ => ofRecord_toJson scored
  have counts : fileCounts ((findings.map (withScore findings)).map Issue.ofScored) =
      .ok (Json.tally ((filesOf findings).map .str)) := by
    rw [← Analysis.map_finding_withScore findings findings] at named
    rw [fileCounts_ofScored named, Analysis.map_finding_withScore]
  have scores : ((findings.map (withScore findings)).map Issue.ofScored).mapM
      (Issue.scored (Json.tally ((filesOf findings).map .str))) =
      .ok ((findings.map (withScore findings)).map Issue.ofScored) := by
    rw [List.map_map, List.mapM_map]
    exact Outcome.mapM_eq_ok fun finding member => scored_ofScored member
  rw [issuesOf, read]
  simp only [bind, Except.bind, counts, scores]

theorem size_filesJson (files : List (String × Survey.FileReport)) :
    (Survey.filesJson files).size = .ok files.length := by
  rw [Survey.filesJson, Json.size, List.length_map]

theorem overallScore_ofScored (issues : List ScoredFinding)
    (files : List (String × Survey.FileReport)) :
    overallScore (issues.map Issue.ofScored) (Survey.filesJson files) =
      Score.ofRepository (.arr (issues.map ScoredFinding.toJson)) (.nat files.length)
        Score.neutralWeight := by
  have member_score : ∀ (issue : Issue) (absent : Json),
      issue.toJson.member "score" absent = .ok (.int issue.score) := by
    intro issue absent
    simp [Issue.toJson, Json.member, Json.lookup?]
  have totals : Score.total ((issues.map Issue.ofScored).map Issue.toJson) =
      Score.total (issues.map ScoredFinding.toJson) := by
    rw [Score.total_map member_score, Score.total_scores, List.map_map]
    rfl
  rw [overallScore, size_filesJson]
  exact Score.ofRepository_congr (by rw [List.length_map, List.length_map, List.length_map]) totals
    _ _

/-! ## The whole -/

/-- The record of an issue in an analysis and the one in a report say the same: they agree on what
every issue has, and what an issue lacks the report has as null. -/
def Agrees (record shown : Json) : Prop :=
  (∀ key ∈ ["id", "category", "severity", "message", "score"],
    (record.get? key).isSome ∧ shown.get? key = record.get? key) ∧
  ∀ key ∈ ["file", "lineno", "evidence"], shown.get? key = some ((record.get? key).getD .null)

theorem get?_scored (scored : ScoredFinding) :
    scored.toJson.get? "id" = some (.str scored.finding.id) ∧
      scored.toJson.get? "category" = some (.str scored.finding.category.name) ∧
      scored.toJson.get? "severity" = some (.str scored.finding.severity.name) ∧
      scored.toJson.get? "message" = some (.str scored.finding.message) ∧
      scored.toJson.get? "score" = some (.int scored.score) ∧
      scored.toJson.get? "file" = scored.finding.details.map (fun details => .str details.file) ∧
      scored.toJson.get? "lineno" =
        scored.finding.details.map (fun details => .ofNat? details.line) ∧
      scored.toJson.get? "evidence" =
        scored.finding.details.map fun details => .str details.evidence := by
  cases details : scored.finding.details with
  | none => simp [ScoredFinding.toJson, Finding.members, details, Json.get?, Json.lookup?]
  | some place => simp [ScoredFinding.toJson, Finding.members, details, Json.get?, Json.lookup?]

theorem agrees_of_plain {issue : Issue} {scored : ScoredFinding}
    (same : Issue.ofScored scored = issue.plain) : Agrees scored.toJson issue.toJson := by
  rcases get?_toJson issue with ⟨id, category, severity, message, score, file, line, evidence⟩
  rcases get?_scored scored with ⟨recordId, recordCategory, recordSeverity, recordMessage,
    recordScore, recordFile, recordLine, recordEvidence⟩
  have whole : issue = { Issue.ofScored scored with explanation := issue.explanation } := by
    rw [same]
    rfl
  simp only [Agrees, List.forall_mem_cons, List.not_mem_nil, id, category, severity, message, score,
    file, line, evidence, recordId, recordCategory, recordSeverity, recordMessage, recordScore,
    recordFile, recordLine, recordEvidence, Option.isSome_some, true_and, false_imp_iff,
    implies_true, and_true]
  rw [whole]
  exact ⟨⟨rfl, rfl, rfl, rfl, rfl⟩, rfl, rfl, rfl⟩

/-- What a report reads from the record of an analysis. -/
theorem lookup_analysis (analysis : Analysis) :
    ∃ members, analysis.toJson = .obj members ∧
      Json.lookup? "issues" members = some (.arr (analysis.issues.map ScoredFinding.toJson)) ∧
      Json.lookup? "files" members = some (Survey.filesJson analysis.files) ∧
      ∃ about, Json.lookup? "meta" members = some (.obj about) := by
  refine ⟨_, rfl, ?_, ?_, ?_⟩
  · simp [Json.lookup?]
  · simp [Json.lookup?]
  · simp [Json.lookup?]

theorem prepared_toJson {analysis : Analysis}
    (issues : analysis.issues = findings.map (withScore findings)) (named : Named findings)
    (overall : Score.ofRepository (.arr (analysis.issues.map ScoredFinding.toJson))
      (.nat analysis.files.length) Score.neutralWeight = .ok analysis.overallScore) :
    prepared analysis.toJson =
      .ok (analysis.issues.map Issue.ofScored, Survey.filesJson analysis.files,
        analysis.overallScore) := by
  rcases lookup_analysis analysis with ⟨members, record, listed, filed, _⟩
  have read : issuesOf (analysis.issues.map ScoredFinding.toJson) =
      .ok (analysis.issues.map Issue.ofScored) := by
    rw [issues]
    exact issuesOf_toJson named
  have score := overallScore_ofScored analysis.issues analysis.files
  rw [overall] at score
  simp only [prepared, record, Json.member, listed, filed, Option.getD_some, Json.elements, read,
    score, bind, Except.bind, pure, Except.pure]

/-- Putting together the parts of a report on an analysis does not fail. -/
theorem partsOf_toJson (now : Moment) (analysis : Analysis) (issues : List Issue) (score : Int) :
    ∃ parts, partsOf now analysis.toJson issues (Survey.filesJson analysis.files) score =
      .ok parts ∧ parts.overallScore = score := by
  rcases lookup_analysis analysis with ⟨members, record, _, _, about, described⟩
  rw [partsOf, record, Json.member, described, size_filesJson]
  exact ⟨_, rfl, rfl⟩

/-- The analysis of a directory has a result, and so has the report on it, whatever becomes of the
advisor.  The report has the score of the analysis and as many issues in the same order, and each
issue says what the one in the analysis says. -/
theorem report_agrees_with_analysis (request : Analysis.Request) (files : Files) (path : String)
    (languages : Json) (isIndexed : Bool) (root : Files.Path) (requested : List RequestedLanguage)
    (rooted : ∃ listing, files.root = .dir listing)
    (located : Analysis.rootOf files path = .ok root)
    (listed : RequestedLanguage.list languages = .ok requested)
    (hasAdvisor : Bool) (environment : Environment) (now : Moment) (world : World) :
    ∃ analysis report,
      Analysis.ofRepository request files path languages isIndexed = .ok analysis ∧
      ((generate hasAdvisor environment now analysis.toJson).run.run world).1 = .ok report ∧
      report.get? "overall_score" = some (.int analysis.overallScore) ∧
      ∃ records shown, analysis.toJson.get? "issues" = some (.arr records) ∧
        report.get? "issues" = some (.arr shown) ∧ List.Forall₂ Agrees records shown := by
  rcases Analysis.ofRepository_eq request isIndexed rooted located listed with
    ⟨analysis, done, issues, _, overall, _⟩
  have named : Named (Analysis.distinct (Analysis.emitted request.reading files root requested)) :=
    Analysis.named_distinct_emitted (Analysis.isDir_of_rootOf rooted located) requested
  have ready := prepared_toJson issues named overall
  rcases lookup_analysis analysis with ⟨members, record, records, _⟩
  rcases generate_of_ok ready hasAdvisor environment now world with ⟨result, explained, ran⟩
  rcases partsOf_toJson now analysis result analysis.overallScore with ⟨parts, made, score⟩
  refine ⟨analysis, parts.record result, done, ?_, ?_, _, _,
    (congrArg (Json.get? · "issues") record).trans records, get?_issues_record parts result, ?_⟩
  · rw [ran, finished, made]
    rfl
  · rw [← score]
    exact get?_overallScore_record parts result
  · have plain : analysis.issues.map Issue.ofScored = result.map Issue.plain := by
      rw [explained.same, List.map_map]
      rfl
    rw [← List.forall₂_eq_eq_eq, List.forall₂_map_left_iff, List.forall₂_map_right_iff] at plain
    rw [List.forall₂_map_left_iff, List.forall₂_map_right_iff]
    exact plain.imp fun _ _ => agrees_of_plain

/-- Two languages side by side, and a language model that is turned on and fails. -/
def failingWorld : World :=
  { files := Analysis.twoLanguageFiles
    service := ⟨true, [.failure "overloaded"], []⟩
    library := ⟨false, [], []⟩
    archive := .unused true
    jobs := [] }

/-- The report on a package and a script, with a language asked for twice and one that is not
known. -/
theorem twoLanguageFiles_report_agrees :
    RequestedLanguage.list (.texts ["py", "js", "cobol", "js"]) =
        .ok [.python, .script, .unknown "cobol", .script] ∧
      ∃ analysis report,
        Analysis.ofRepository Analysis.plainRequest Analysis.twoLanguageFiles "/"
          (.texts ["py", "js", "cobol", "js"]) false = .ok analysis ∧
        ((generate true [("USE_LLM", "true"), ("LLM_PROVIDER", "gemini")] Analysis.plainRequest.now
          analysis.toJson).run.run failingWorld).1 = .ok report ∧
        report.get? "overall_score" = some (.int analysis.overallScore) ∧
        ∃ records shown, analysis.toJson.get? "issues" = some (.arr records) ∧
          report.get? "issues" = some (.arr shown) ∧ List.Forall₂ Agrees records shown := by
  have listed : RequestedLanguage.list (.texts ["py", "js", "cobol", "js"]) =
      .ok [.python, .script, .unknown "cobol", .script] := by
    rfl
  exact ⟨listed, report_agrees_with_analysis Analysis.plainRequest Analysis.twoLanguageFiles "/"
    (.texts ["py", "js", "cobol", "js"]) false [] _ ⟨_, rfl⟩ (Analysis.rootOf_slash _ ⟨_, rfl⟩)
    listed true _ _ failingWorld⟩

end Report
end CodeQuality
