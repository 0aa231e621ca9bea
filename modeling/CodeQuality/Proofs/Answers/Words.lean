import CodeQuality.Proofs.Answers.Fixes

namespace CodeQuality
namespace Answers

/-!
Answers by the words of a question.

The records that are kept describe findings, and to such a record every question has an
answer.  The sources of the answers are files, with one exception: the list of the most
severe issues may come down to an issue that has no file.  It does so when the record
says that the file is absent and fewer than three issues are of high or medium severity.
-/

open Report (Describes)
open Text List

/-! ## What is known of a record -/

/-- A record is about a finding in a file, whose identifier was made by a survey, or about a
language that is not known. -/
inductive Known (absent : Option Json) (record : Json) : Prop
  | placed {finding : Finding} {details : Details} (describes : Describes absent record finding)
      (present : finding.details = some details)
      (coded : finding.id.toList.head? = some 'P' ∨ finding.id.toList.head? = some 'J')
  | language {text : String} (describes : Describes absent record (Analysis.languageFinding text))

theorem coded_label (kind : Analysis.Kind) (known : kind ≠ .language) (mark : List Char) :
    (kind.label.toList ++ mark).head? = some 'P' ∨
      (kind.label.toList ++ mark).head? = some 'J' := by
  cases kind with
  | language => exact absurd rfl known
  | parsing | complexity | note | danger | package => exact Or.inl rfl
  | scriptNote | suspicion | duplication | scripts => exact Or.inr rfl

theorem known_of_emission {absent : Option Json} {record : Json} {reading : Analysis.Reading}
    {files : Files} {root : Files.Path} {language : RequestedLanguage} {kind : Analysis.Kind}
    {finding : Finding} (describes : Describes absent record finding)
    (emission : Analysis.Emission reading files root language kind finding) :
    Known absent record := by
  by_cases unknown : kind = .language
  · subst unknown
    cases emission
    exact .language describes
  · rcases emission.exists_details unknown with ⟨details, present⟩
    rcases emission.marked unknown with ⟨mark, spelled, _⟩
    apply Known.placed describes present
    rw [spelled]
    exact coded_label kind unknown mark

theorem known_of_sourced {absent : Option Json} {records : List Json} {findings : List Finding}
    {reading : Analysis.Reading} {files : Files} {root : Files.Path}
    (describe : Forall₂ (Describes absent) records findings)
    (sourced : Analysis.Sourced reading files root findings) {record : Json}
    (member : record ∈ records) : Known absent record := by
  rcases Report.exists_describes describe member with ⟨finding, inside, describes⟩
  rcases sourced.emission finding inside with ⟨_, _, emission⟩
  exact known_of_emission describes emission

section

variable {absent : Option Json} {record : Json}

theorem Known.exists_describes (known : Known absent record) :
    ∃ finding, Describes absent record finding := by
  cases known with
  | placed describes => exact ⟨_, describes⟩
  | language describes => exact ⟨_, describes⟩

theorem Known.member (known : Known absent record) (key : String) (other : Json) :
    record.member key other = .ok ((record.get? key).getD other) := by
  rcases known.exists_describes with ⟨finding, describes⟩
  exact describes.member key other

/-- Only the record of a language that is not known is without a file. -/
theorem Known.exists_file (known : Known absent record) {category : String}
    (own : record.get? "category" = some (.str category)) (other : category ≠ "warning") :
    ∃ file, record.get? "file" = some (.str file) := by
  cases known with
  | placed describes present => exact ⟨_, (describes.placed _ present).1⟩
  | language describes =>
      rw [describes.category] at own
      cases own
      exact absurd rfl other

end

/-! ## Answers and their sources -/

/-- A value is a text. -/
def IsText (value : Json) : Prop := ∃ text, value = .str text

/-- An outcome is an answer.  Its sources are texts, but for an absent one if there is to be
one. -/
def Gives (lacking : Prop) (outcome : Outcome Json) : Prop :=
  ∃ text sources confidence, outcome = .ok (answer text sources confidence) ∧
    (∀ item ∈ sources, item = .null ∨ IsText item) ∧ (.null ∈ sources ↔ lacking)

theorem gives_of_texts {sources : List Json} (texts : ∀ item ∈ sources, IsText item)
    (text confidence : String) : Gives False (.ok (answer text sources confidence)) := by
  refine ⟨text, sources, confidence, rfl, fun item member => Or.inr (texts item member), ?_⟩
  constructor
  · intro member
    rcases texts .null member with ⟨_, same⟩
    cases same
  · exact False.elim

theorem gives_without_sources (text confidence : String) :
    Gives False (.ok (answer text [] confidence)) :=
  gives_of_texts (fun _ member => by cases member) text confidence

theorem source_of_file {record : Json} {file : String}
    (placed : record.get? "file" = some (.str file)) : source record = .str file := by
  rw [source, placed]
  rfl

theorem mem_insertSource {item other : Json} {sources : List Json}
    (member : other ∈ insertSource item sources) : other = item ∨ other ∈ sources := by
  induction sources with
  | nil => exact Or.inl (mem_singleton.mp member)
  | cons own rest ih =>
      have placed : ∀ isFirst : Bool,
          other ∈ (if isFirst then item :: own :: rest else own :: insertSource item rest) →
          other = item ∨ other ∈ own :: rest := by
        intro isFirst inside
        cases isFirst with
        | true => exact mem_cons.mp inside
        | false =>
            rcases mem_cons.mp inside with rfl | below
            · exact Or.inr mem_cons_self
            · exact (ih below).imp_right (mem_cons_of_mem own)
      unfold insertSource at member
      by_cases same : Json.same own item = true
      · rw [if_pos same] at member
        exact Or.inr member
      · rw [if_neg same] at member
        exact placed _ member

theorem mem_foldl_insertSource {keys sources : List Json} {other : Json}
    (member : other ∈ keys.foldl (fun sources item => insertSource item sources) sources) :
    other ∈ keys ∨ other ∈ sources := by
  induction keys generalizing sources with
  | nil => exact Or.inr member
  | cons key keys ih =>
      rcases ih member with later | placed
      · exact Or.inl (mem_cons_of_mem key later)
      · rcases mem_insertSource placed with rfl | before
        · exact Or.inl mem_cons_self
        · exact Or.inr before

/-- A list of issues with files has these files as its sources. -/
theorem gives_listAnswer {found : List Json} (texts : ∀ record ∈ found, IsText (source record))
    (heading : String) : Gives False (listAnswer heading found) := by
  have listed : ∀ item ∈ (found.take 10).map source, IsText item := by
    intro item member
    rcases mem_map.mp member with ⟨record, inside, rfl⟩
    exact texts record (mem_of_mem_take inside)
  have keys : ((found.take 10).map source).mapM Json.asKey =
      .ok (((found.take 10).map source).map id) := by
    apply Outcome.mapM_eq_ok
    intro item member
    rcases listed item member with ⟨text, rfl⟩
    rfl
  rw [listAnswer, distinctSources, keys]
  apply gives_of_texts
  intro item member
  rcases mem_foldl_insertSource member with inside | none
  · rw [map_id] at inside
    exact listed item inside
  · cases none

section

variable {absent : Option Json} {records : List Json}
  (known : ∀ record ∈ records, Known absent record)

include known

/-- The records of a category and of a severity are found. -/
theorem having_eq (category : String) (severity : Option String) :
    having records category severity = .ok (records.filter fun record =>
      (value record "category").isText category &&
        severity.all fun wanted => (value record "severity").isText wanted) := by
  rw [having, @Outcome.mapM_eq_ok _ _ _ (fun record =>
    (record, (value record "category").isText category &&
      severity.all fun wanted => (value record "severity").isText wanted)) records]
  · simp only [bind, Except.bind, filter_map, map_map]
    exact congrArg Except.ok (map_id _)
  · intro record member
    rw [(known record member).member]
    simp only [bind, Except.bind, value]
    cases ((record.get? "category").getD .null).isText category with
    | false => rfl
    | true =>
        cases severity with
        | none => rfl
        | some wanted => rfl

/-- The sources of records of a category are files. -/
theorem exists_having (category : String) (severity : Option String)
    (other : category ≠ "warning") :
    ∃ found, having records category severity = .ok found ∧
      ∀ record ∈ found, IsText (source record) := by
  refine ⟨_, having_eq known category severity, ?_⟩
  intro record member
  rcases mem_filter.mp member with ⟨inside, holds⟩
  rcases (known record inside).exists_describes with ⟨finding, describes⟩
  have own : record.get? "category" = some (.str category) := by
    rw [Bool.and_eq_true, value, describes.category] at holds
    rw [describes.category, eq_of_beq holds.1]
  rcases (known record inside).exists_file own other with ⟨file, placed⟩
  exact ⟨file, source_of_file placed⟩

theorem gives_testsAnswer : Gives False (testsAnswer records) := by
  rcases exists_having known "testing" (some "missing") (by decide) with
    ⟨found, done, texts⟩
  rw [testsAnswer, done]
  simp only [bind, Except.bind]
  split
  · exact gives_without_sources _ _
  · apply gives_of_texts
    intro item member
    rcases mem_map.mp member with ⟨record, inside, rfl⟩
    exact texts record inside

/-- The records of a category are listed, or it is said that there are none. -/
theorem gives_listed (category : String) (severity : Option String) (other : category ≠ "warning")
    (none heading : String) :
    Gives False (having records category severity >>= fun found =>
      if found.isEmpty then pure (answer none [] "high") else listAnswer heading found) := by
  rcases exists_having known category severity other with ⟨found, done, texts⟩
  rw [done]
  simp only [bind, Except.bind]
  split
  · exact gives_without_sources _ _
  · exact gives_listAnswer texts heading

theorem gives_complexityAnswer : Gives False (complexityAnswer records) :=
  gives_listed known "complexity" (some "high") (by decide) _ _

theorem gives_securityAnswer : Gives False (securityAnswer records) :=
  gives_listed known "security" none (by decide) _ _

/-- Whether the file that a record names has a text in its name. -/
def isFiledUnder (name : String) (record : Json) : Bool :=
  match record.get? "file" with
  | some (.str file) => !file.isEmpty && occursIn name.toList file.toList
  | _ => false

/-- The row that shows an issue in a file. -/
def fileRow (issue : Json) : String :=
  "- [" ++ shown issue "id" ++ "] " ++ shown issue "severity" ++ " " ++ shown issue "category" ++
    ": " ++ shown issue "message"

/-- The answer that lists issues under the name of a file. -/
def fileListing (name : String) (listed : List Json) : Json :=
  answer (joinLines (("Issues for " ++ name ++ ":") :: listed.map fileRow)) [.str name] "medium"

/-- The records that are filed under a name are found, and the first five are shown. -/
theorem fileAnswer_eq (filed : absent = none ∨ absent = some .null) (name : String) :
    fileAnswer records name = .ok
      (if (records.filter (isFiledUnder name)).isEmpty then
        answer ("No issues found for " ++ name ++ ".") [.str name] "medium"
      else fileListing name ((records.filter (isFiledUnder name)).take 5)) := by
  rw [fileAnswer, @Outcome.mapM_eq_ok _ _ _ (fun record => (record, isFiledUnder name record))
    records]
  · have found : ((records.map fun record => (record, isFiledUnder name record)).filter
        (·.2)).map (·.1) = records.filter (isFiledUnder name) := by
      rw [filter_map, map_map]
      exact map_id _
    simp only [bind, Except.bind, found]
    split
    next => rfl
    next => rfl
  · intro record member
    rw [isFiledUnder, (known record member).member]
    cases known record member with
    | @placed _ details describes present =>
        rw [(describes.placed details present).1]
        simp only [bind, Except.bind, Option.getD_some, Json.isTruthy, Json.holdsText]
        by_cases empty : details.file.isEmpty = true
        · simp [empty, pure, Except.pure]
        · simp [empty, pure, Except.pure]
    | language describes =>
        rw [describes.placeless rfl]
        rcases filed with rfl | rfl
        · rfl
        · rfl

/-- The source of an answer about a file is what was asked for. -/
theorem gives_fileAnswer (filed : absent = none ∨ absent = some .null) (name : String) :
    Gives False (fileAnswer records name) := by
  have named : ∀ item ∈ [Json.str name], IsText item := by
    intro item member
    exact ⟨name, mem_singleton.mp member⟩
  rw [fileAnswer_eq known filed]
  split
  · exact gives_of_texts named _ _
  · exact gives_of_texts named _ _

theorem findByLoweredId?_known (id : String) :
    findByLoweredId? id records = .ok none ∨
      ∃ record ∈ records, findByLoweredId? id records = .ok (some record) ∧
        ∃ own, record.get? "id" = some (.str own) ∧ lowerString own = lowerString id := by
  induction records with
  | nil => exact Or.inl rfl
  | cons record rest ih =>
      have below := ih fun other member => known other (mem_cons_of_mem record member)
      have knownRecord := known record mem_cons_self
      rcases knownRecord.exists_describes with ⟨finding, describes⟩
      have step : findByLoweredId? id (record :: rest) =
          if lowerString finding.id = lowerString id then .ok (some record)
          else findByLoweredId? id rest := by
        rw [findByLoweredId?, knownRecord.member, describes.id]
        rfl
      rw [step]
      split
      next same => exact Or.inr ⟨record, mem_cons_self, rfl, finding.id, describes.id, same⟩
      next other =>
        rcases below with none | ⟨found, member, done, facts⟩
        · exact Or.inl none
        · exact Or.inr ⟨found, mem_cons_of_mem record member, done, facts⟩

omit known in
/-- An identifier in a question does not begin as those for languages do. -/
theorem head?_lower_findId? {text : List Char} {id : String} (found : findId? text = some id) :
    (lower id.toList).head? ≠ some 'u' := by
  rcases Option.map_eq_some_iff.mp found with ⟨first, is, rfl⟩
  rcases scan_of_mem_matchesFrom (mem_of_head? is) with ⟨left, read⟩
  rw [String.toList_ofList]
  intro letter
  cases spelled : first.text.take first.length with
  | nil =>
      rw [spelled] at letter
      cases letter
  | cons c rest =>
      rw [spelled] at letter
      have small : toLowerChar c = 'u' := by
        rcases head?_lower c rest with same | same | same
        · rw [same] at letter
          exact Option.some.inj letter
        · rw [same] at letter
          cases letter
        · rw [same] at letter
          cases letter
      have other : (isLetter 'p' c || isLetter 'j' c) = false := by
        rw [isLetter, isLetter, small]
        rfl
      have whole : first.text = c :: (rest ++ first.text.drop first.length) := by
        rw [← cons_append, ← spelled, take_append_drop]
      rw [whole, issueId_eq_none other] at read
      cases read

theorem gives_fixAnswer {text : List Char} {id : String} (found : findId? text = some id) :
    Gives False (fixAnswer records id) := by
  rw [fixAnswer]
  rcases findByLoweredId?_known known id with none | ⟨record, member, done, own, named, same⟩
  · rw [none]
    exact gives_without_sources _ _
  · rw [done]
    apply gives_of_texts
    intro item inside
    rw [mem_singleton.mp inside]
    cases known record member with
    | placed describes present => exact ⟨_, source_of_file (describes.placed _ present).1⟩
    | language describes =>
        -- a language that is not known has an identifier that the question cannot name
        rw [describes.id] at named
        cases named
        apply absurd _ (head?_lower_findId? found)
        have letters := congrArg (fun text : String => text.toList.head?) same
        simp only [lowerString, String.toList_ofList] at letters
        rw [← letters]
        exact head?_lower_unknown _

end

/-! ## The most severe issues -/

/-- Whether the severity of an issue is high or medium. -/
def isSevere (record : Json) : Bool :=
  (value record "severity").isText "high" || (value record "severity").isText "medium"

/-- Whether a record says that the file of an issue is absent. -/
def isUnplaced (record : Json) : Bool :=
  match record.get? "file" with
  | some .null => true
  | _ => false

theorem isUnplaced_iff {record : Json} :
    isUnplaced record = true ↔ record.get? "file" = some .null := by
  unfold isUnplaced
  split
  next same => exact iff_of_true rfl same
  next other => exact iff_of_false (by decide) other

/-- The rank of the issue of a record. -/
def rankOf (record : Json) : Nat := (rank (value record "severity")).toOption.getD 0

/-- A record with what it is sorted by. -/
def rankedOf (record : Json) : Ranked :=
  ⟨record, rankOf record, (record.get? "id").getD (.str "")⟩

/-- Severe issues come first, then those without a file, then the others. -/
def level (record : Json) : Nat :=
  if isSevere record then 2 else if isUnplaced record then 1 else 0

section

variable {absent : Option Json} {record : Json}

/-- What the severity of an issue says of its rank. -/
theorem rank_of_describes {finding : Finding} (describes : Describes absent record finding) :
    rank (value record "severity") = .ok (rankOf record) ∧
      isSevere record = decide (2 ≤ rankOf record) ∧
      (finding.severity = .low → rankOf record = 1) := by
  have severity : value record "severity" = .str finding.severity.name := by
    rw [value, describes.severity]
    rfl
  rw [rankOf, isSevere, severity]
  cases finding.severity with
  | high => exact ⟨rfl, rfl, fun other => by cases other⟩
  | medium => exact ⟨rfl, rfl, fun other => by cases other⟩
  | low => exact ⟨rfl, rfl, fun _ => rfl⟩
  | missing => exact ⟨rfl, rfl, fun other => by cases other⟩

/-- Where an issue stands: it is severe, or it has no file and is ranked behind, or it is ranked
behind and made by a survey. -/
theorem Known.standing (known : Known absent record) :
    (2 ≤ rankOf record ∧ level record = 2) ∨
      (rankOf record = 1 ∧ level record = 1 ∧ absent = some .null ∧
        ∃ text, record.get? "id" = some (.str ("unknown-" ++ text))) ∨
      (rankOf record ≤ 1 ∧ level record = 0 ∧ (absent = some .null →
        ∃ id, record.get? "id" = some (.str id) ∧
          (id.toList.head? = some 'P' ∨ id.toList.head? = some 'J'))) := by
  cases known with
  | placed describes present coded =>
      rcases rank_of_describes describes with ⟨_, severe, _⟩
      have placed : isUnplaced record = false := by
        rw [isUnplaced, (describes.placed _ present).1]
      by_cases above : 2 ≤ rankOf record
      · left
        refine ⟨above, ?_⟩
        rw [level, severe, decide_eq_true above]
        rfl
      · right
        right
        refine ⟨by omega, ?_, fun _ => ⟨_, describes.id, coded⟩⟩
        rw [level, severe, decide_eq_false above, placed]
        rfl
  | language describes =>
      rcases rank_of_describes describes with ⟨_, severe, low⟩
      have one : rankOf record = 1 := low rfl
      have file := describes.placeless rfl
      have mild : isSevere record = false := by
        rw [severe, one]
        rfl
      right
      by_cases unplaced : isUnplaced record = true
      · left
        refine ⟨one, ?_, ?_, _, describes.id⟩
        · rw [level, mild, unplaced]
          rfl
        · rw [← file]
          exact isUnplaced_iff.mp unplaced
      · right
        refine ⟨by omega, ?_, ?_⟩
        · rw [level, mild, if_neg Bool.false_ne_true, if_neg unplaced]
        · intro null
          rw [null] at file
          exact absurd (isUnplaced_iff.mpr file) unplaced

theorem level_le (record : Json) : level record ≤ 2 := by
  unfold level
  split
  · exact Nat.le_refl 2
  · split
    · decide
    · decide

theorem level_eq_two (record : Json) : level record = 2 ↔ isSevere record = true := by
  unfold level
  split
  next severe => exact iff_of_true rfl severe
  next mild =>
    refine iff_of_false ?_ mild
    split
    · decide
    · decide

theorem Known.level_eq_one (known : Known absent record) :
    level record = 1 ↔ record.get? "file" = some .null := by
  rw [← isUnplaced_iff]
  constructor
  · intro one
    unfold level at one
    split at one
    · cases one
    · split at one
      next unplaced => exact unplaced
      next => cases one
  · intro unplaced
    cases known with
    | placed describes present =>
        rw [isUnplaced_iff, (describes.placed _ present).1] at unplaced
        cases unplaced
    | language describes =>
        rcases rank_of_describes describes with ⟨_, severe, low⟩
        rw [level, severe, low rfl, unplaced]
        rfl

/-- Identifiers made by surveys come before those for languages. -/
theorem coded_lt {id : String} (coded : id.toList.head? = some 'P' ∨ id.toList.head? = some 'J')
    (text : String) : id < "unknown-" ++ text ∧ ¬ "unknown-" ++ text < id := by
  rw [String.lt_iff, String.lt_iff, String.toList_append]
  have spelled : ∃ rest, "unknown-".toList ++ text.toList = 'u' :: rest := ⟨_, rfl⟩
  rcases spelled with ⟨rest, spelled⟩
  rw [spelled]
  cases letters : id.toList with
  | nil =>
      rw [letters] at coded
      simp at coded
  | cons c tail =>
      rw [letters] at coded
      have before : c < 'u' ∧ ¬ 'u' < c ∧ 'u' ≠ c := by
        rcases coded with capital | capital
        · cases capital
          decide
        · cases capital
          decide
      rw [cons_lt_cons_iff, cons_lt_cons_iff]
      refine ⟨Or.inl before.1, ?_⟩
      rintro (after | ⟨same, _⟩)
      · exact before.2.1 after
      · exact before.2.2 same

end

variable {first second : Json}

/-- Two ranked records are compared by their ranks and, within a rank, by their identifiers. -/
theorem isBefore_rankedOf {one other : String} (named : first.get? "id" = some (.str one))
    (another : second.get? "id" = some (.str other)) :
    Ranked.isBefore (rankedOf first) (rankedOf second) =
      .ok (if rankOf first = rankOf second then decide (one < other)
        else decide (rankOf first < rankOf second)) := by
  rw [Ranked.isBefore, rankedOf, rankedOf, named, another]
  by_cases ranks : rankOf first = rankOf second
  · rw [if_neg (not_not_intro ranks), if_pos ranks]
    by_cases same : one = other
    · subst same
      have alike : Json.same (.str one) (.str one) = true := beq_self_eq_true one
      rw [Option.getD_some, alike, if_pos rfl, decide_eq_false (String.lt_irrefl one)]
    · have unlike : Json.same (.str one) (.str other) = false := beq_false_of_ne same
      rw [Option.getD_some, Option.getD_some, unlike]
      rfl
  · rw [if_pos ranks, if_neg ranks]

/-- A record of a lower level has a lower rank, or the same rank and an earlier identifier. -/
theorem before_of_level_lt {absent : Option Json} {one other : String}
    (known : Known absent first) (knownOther : Known absent second)
    (named : first.get? "id" = some (.str one)) (another : second.get? "id" = some (.str other))
    (lower : level first < level second) :
    rankOf first < rankOf second ∨ rankOf first = rankOf second ∧ one < other ∧ ¬ other < one := by
  rcases knownOther.standing with ⟨rank, at2⟩ | ⟨rank, at1, null, text, label⟩ | ⟨_, at0, _⟩
  · rcases known.standing with ⟨_, level⟩ | ⟨rank, _⟩ | ⟨rank, _⟩
    · omega
    · left
      omega
    · left
      omega
  · rcases known.standing with ⟨_, level⟩ | ⟨_, level, _⟩ | ⟨low, _, coded⟩
    · omega
    · omega
    · rcases Nat.lt_or_eq_of_le (rank ▸ low) with less | same
      · exact Or.inl less
      · right
        rcases coded null with ⟨id, own, capital⟩
        rw [named] at own
        cases own
        rw [another] at label
        cases label
        exact ⟨same, coded_lt capital text⟩
  · omega

/-- Comparing respects the levels of records. -/
theorem isBefore_levels {absent : Option Json} (known : Known absent first)
    (knownOther : Known absent second) :
    ∃ answer, Ranked.isBefore (rankedOf first) (rankedOf second) = .ok answer ∧
      (level first < level second → answer = true) ∧
      (level second < level first → answer = false) := by
  rcases known.exists_describes with ⟨_, describes⟩
  rcases knownOther.exists_describes with ⟨_, others⟩
  refine ⟨_, isBefore_rankedOf describes.id others.id, ?_, ?_⟩
  · intro lower
    rcases before_of_level_lt known knownOther describes.id others.id lower with
      less | ⟨same, before, _⟩
    · rw [if_neg (Nat.ne_of_lt less), decide_eq_true less]
    · rw [if_pos same, decide_eq_true before]
  · intro higher
    rcases before_of_level_lt knownOther known others.id describes.id higher with
      less | ⟨same, _, after⟩
    · rw [if_neg (Nat.ne_of_gt less), decide_eq_false (Nat.lt_asymm less)]
    · rw [if_pos same.symm, decide_eq_false after]

section

variable {absent : Option Json} {records : List Json}
  (known : ∀ record ∈ records, Known absent record)

include known

theorem exists_unplaced_iff {part : List Json} (inside : ∀ record ∈ part, record ∈ records) :
    (∃ record ∈ part, record.get? "file" = some .null) ↔ ∃ record ∈ part, level record = 1 := by
  apply exists_congr
  intro record
  apply and_congr_right
  intro member
  exact (known record (inside record member)).level_eq_one.symm

omit known in
/-- Sorted, the records are the same and still sorted when what they were sorted by is gone. -/
theorem exists_issues {sorted : List Ranked} (perm : sorted.Perm (records.map rankedOf))
    (levels : sorted.Pairwise fun first second => level second.issue ≤ level first.issue) :
    ∃ issues, sorted.map Ranked.issue = issues ∧ issues.Perm records ∧
      issues.Pairwise fun first second => level second ≤ level first := by
  refine ⟨_, rfl, ?_, pairwise_map.mpr levels⟩
  have plain : (records.map rankedOf).map Ranked.issue = records := by
    rw [map_map]
    exact map_id records
  exact plain ▸ perm.map Ranked.issue

/-- The most severe issues are found.  One of them is without a file exactly when there is such an
issue and fewer than three are severe. -/
theorem mostSevere_eq :
    ∃ top, mostSevere records = .ok top ∧ (∀ record ∈ top, record ∈ records) ∧
      ((∃ record ∈ top, record.get? "file" = some .null) ↔
        (∃ record ∈ records, record.get? "file" = some .null) ∧
          records.countP isSevere < 3) := by
  have ranks : (records.mapM fun issue => do
      let severity ← issue.member "severity" (.str "low")
      pure (⟨issue, ← rank severity, (issue.get? "id").getD (.str "")⟩ : Ranked)) =
      (.ok (records.map rankedOf) : Outcome (List Ranked)) := by
    apply Outcome.mapM_eq_ok
    intro record member
    rcases (known record member).exists_describes with ⟨finding, describes⟩
    rcases rank_of_describes describes with ⟨given, _, _⟩
    rw [value, describes.severity, Option.getD_some] at given
    rw [describes.member, describes.severity, Option.getD_some]
    simp only [bind, Except.bind, given]
    rfl
  have compared : ∀ first second : Ranked,
      (∃ record ∈ records, rankedOf record = first) →
      (∃ record ∈ records, rankedOf record = second) →
      ∃ answer, first.isBefore second = .ok answer ∧
        (level first.issue < level second.issue → answer = true) ∧
        (level second.issue < level first.issue → answer = false) := by
    rintro _ _ ⟨first, member, rfl⟩ ⟨second, another, rfl⟩
    exact isBefore_levels (known first member) (known second another)
  have knownItems : ∀ item ∈ records.map rankedOf, ∃ record ∈ records, rankedOf record = item :=
    fun item member => mem_map.mp member
  rcases Sorting.descending_levels compared knownItems with ⟨sorted, done, perm, levels⟩
  rcases exists_issues perm levels with ⟨issues, same, ordered, issuesLevels⟩
  have members : ∀ record ∈ issues.take 3, record ∈ records := fun record member =>
    ordered.mem_iff.mp (mem_of_mem_take member)
  refine ⟨issues.take 3, ?_, members, ?_⟩
  · rw [mostSevere, ranks]
    simp only [bind, Except.bind, done, map_take]
    rw [same]
    rfl
  · calc
      (∃ record ∈ issues.take 3, record.get? "file" = some .null) ↔
          ∃ record ∈ issues.take 3, level record = 1 := exists_unplaced_iff known members
      _ ↔ (∃ record ∈ issues, level record = 1) ∧
          issues.countP (fun record => level record = 2) < 3 :=
        Sorting.exists_mem_take_iff issuesLevels (fun record _ => level_le record) 3
      _ ↔ (∃ record ∈ records, level record = 1) ∧ records.countP isSevere < 3 := by
        simp only [ordered.mem_iff, ordered.countP_eq, level_eq_two, Bool.decide_eq_true]
      _ ↔ (∃ record ∈ records, record.get? "file" = some .null) ∧
          records.countP isSevere < 3 := by
        rw [exists_unplaced_iff known fun _ member => member]

/-- The answer that lists the most severe issues. -/
theorem gives_severeAnswer (filed : absent = none ∨ absent = some .null) :
    Gives ((∃ record ∈ records, record.get? "file" = some .null) ∧ records.countP isSevere < 3)
      (severeAnswer records) := by
  rcases mostSevere_eq known with ⟨top, done, members, lacking⟩
  have sources : ∀ item ∈ top.map source, item = .null ∨ IsText item := by
    intro item member
    rcases mem_map.mp member with ⟨record, inside, rfl⟩
    cases known record (members record inside) with
    | placed describes present => exact Or.inr ⟨_, source_of_file (describes.placed _ present).1⟩
    | language describes =>
        rw [source, describes.placeless rfl]
        rcases filed with rfl | rfl
        · exact Or.inr ⟨"", rfl⟩
        · exact Or.inl rfl
  have nulls : .null ∈ top.map source ↔ ∃ record ∈ top, record.get? "file" = some .null := by
    rw [mem_map]
    apply exists_congr
    intro record
    apply and_congr_right
    intro _
    rw [source]
    cases record.get? "file" with
    | none => simp
    | some file => simp
  rw [severeAnswer, done]
  simp only [bind, Except.bind]
  split
  next empty =>
    rw [isEmpty_iff.mp empty] at sources nulls lacking
    exact ⟨_, _, _, rfl, sources, nulls.trans lacking⟩
  next => exact ⟨_, _, _, rfl, sources, nulls.trans lacking⟩

end

/-! ## All questions -/

/-- A question asks for the most severe issues, and one of those that a report lists then is
without a file. -/
def LacksSource (report : Json) (question : String) : Prop :=
  mentions (lower question.toList) ["top", "highest", "most severe"] = true ∧
    ∃ records, report.get? "issues" = some (.arr records) ∧
      (∃ record ∈ records, record.get? "file" = some .null) ∧ records.countP isSevere < 3

theorem Gives.congr {lacking other : Prop} {outcome : Outcome Json} (gives : Gives lacking outcome)
    (same : lacking ↔ other) : Gives other outcome := by
  rcases gives with ⟨text, sources, confidence, done, texts, nulls⟩
  exact ⟨text, sources, confidence, done, texts, nulls.trans same⟩

/-- Every question about a record of findings has an answer. -/
theorem gives_byWords {absent : Option Json} {report : Json} {findings : List Finding}
    {reading : Analysis.Reading} {files : Files} {root : Files.Path}
    (lists : Report.Lists absent report findings)
    (sourced : Analysis.Sourced reading files root findings)
    (filed : absent = none ∨ absent = some .null) (question : String) :
    Gives (LacksSource report question) (byWords report (.str question)) := by
  rcases lists with ⟨isRecord, records, listed, describe⟩
  have known : ∀ record ∈ records, Known absent record := fun _ => known_of_sourced describe sourced
  have issues := Report.member_issues isRecord listed
  have asked : (Json.str question).lowered = .ok (String.ofList (lower question.toList)) := rfl
  rw [byWords, asked]
  simp only [bind, Except.bind, issues, String.toList_ofList, Json.elements]
  split
  next severe =>
    apply (gives_severeAnswer known filed).congr
    constructor
    · intro lacking
      exact ⟨severe, records, listed, lacking⟩
    · rintro ⟨_, others, same, lacking⟩
      rw [listed] at same
      cases same
      exact lacking
  next other =>
    have placed : False ↔ LacksSource report question :=
      iff_of_false not_false fun lacking => other lacking.1
    apply Gives.congr _ placed
    split
    · exact gives_testsAnswer known
    · cases first? fileName (lower question.toList) with
      | some found => exact gives_fileAnswer known filed _
      | none =>
          simp only
          split
          next id _ named => exact gives_fixAnswer known named
          next =>
            split
            · exact gives_complexityAnswer known
            · split
              · exact gives_securityAnswer known
              · rcases isRecord with ⟨first, rest, rfl⟩
                exact gives_without_sources _ _

end Answers
end CodeQuality
