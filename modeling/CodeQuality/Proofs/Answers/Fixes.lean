import CodeQuality.Proofs.Report.Records
import CodeQuality.Proofs.Text.Scanning
import CodeQuality.Answers

namespace CodeQuality

/-!
Asking how to fix an issue.

A question is read in small letters, and several other things are looked for in it before
an identifier is.  An identifier of a survey is a label and some hexadecimal digits.
Labels stay different in small letters and digits stay the same, so the question leads
to the issue that it names, and to no other.
-/

open Text Analysis List

namespace Analysis

/-! ## Identifiers in small letters -/

/-- The label of a kind in small letters. -/
def Kind.lowered (kind : Kind) : List Char := kind.label.toList.map toLowerChar

theorem Kind.eq_of_lowered_prefix (first second : Kind) :
    first.lowered <+: second.lowered → first = second := by
  cases first <;> cases second <;> decide

/-- What begins with two labels in small letters begins with one label. -/
theorem Kind.eq_of_lowered_append {first second : Kind} {rest more : List Char}
    (same : first.lowered ++ rest = second.lowered ++ more) : first = second := by
  rcases prefix_or_prefix_of_prefix (same ▸ prefix_append first.lowered rest)
    (prefix_append second.lowered more) with shorter | longer
  · exact Kind.eq_of_lowered_prefix first second shorter
  · exact (Kind.eq_of_lowered_prefix second first longer).symm

theorem mem_mark {width : Nat} {file line topic : String} {c : Char}
    (member : c ∈ (Finding.mark width file line topic).toList) : c ∈ hexLetters := by
  unfold Finding.mark Digest.short Digest.ofText Digest.ofBytes at member
  rw [String.toList_ofList, String.toList_ofList] at member
  rcases mem_flatMap.mp (mem_of_mem_take member) with ⟨word, _, inside⟩
  exact mem_hexLetters inside

theorem mark_ne_nil {width : Nat} (positive : 0 < width) (file line topic : String) :
    (Finding.mark width file line topic).toList ≠ [] := by
  unfold Finding.mark Digest.short Digest.ofText Digest.ofBytes
  rw [String.toList_ofList, String.toList_ofList]
  intro empty
  rcases take_eq_nil_iff.mp empty with zero | none
  · omega
  · have first := flatMap_eq_nil_iff.mp none _ mem_cons_self
    rw [Digest.wordDigits, hexDigits] at first
    exact append_ne_nil_of_right_ne_nil _ (cons_ne_nil _ _) first

/-- What is said of the digits of an identifier. -/
theorem digit_facts {c : Char} (member : c ∈ hexLetters) :
    c.toNat < 128 ∧ toLowerChar c = c ∧ Answers.isMarkDigit c = true ∧ c ≠ '.' := by
  have all : (hexLetters.all fun c => decide (c.toNat < 128 ∧ toLowerChar c = c ∧
      Answers.isMarkDigit c = true ∧ c ≠ '.')) = true := by
    decide
  exact of_decide_eq_true (all_eq_true.mp all c member)

section

variable {reading : Reading} {files : Files} {root : Files.Path}

/-- The identifiers that surveys make are labels with digits behind them. -/
theorem Emission.marked {language : RequestedLanguage} {kind : Kind} {finding : Finding}
    (emission : Emission reading files root language kind finding) (known : kind ≠ .language) :
    ∃ mark, finding.id.toList = kind.label.toList ++ mark ∧ mark ≠ [] ∧
      ∀ c ∈ mark, c ∈ hexLetters := by
  cases emission with
  | language => exact absurd rfl known
  | _ => exact ⟨_, String.toList_append, mark_ne_nil (by decide) _ _ _, fun _ => mem_mark⟩

theorem Emission.exists_details {language : RequestedLanguage} {kind : Kind} {finding : Finding}
    (emission : Emission reading files root language kind finding) (known : kind ≠ .language) :
    ∃ details, finding.details = some details := by
  cases emission with
  | language => exact absurd rfl known
  | _ => exact ⟨_, rfl⟩

end

theorem lower_append_digits {text mark : List Char} (ascii : ∀ c ∈ text, c.toNat < 128)
    (digits : ∀ c ∈ mark, c ∈ hexLetters) :
    lower (text ++ mark) = text.map toLowerChar ++ mark := by
  have small : mark.map toLowerChar = mark := by
    rw [map_congr_left fun c member => (digit_facts (digits c member)).2.1, map_id']
  rw [lower_ascii, map_append, small]
  intro c member
  rcases mem_append.mp member with before | digit
  · exact ascii c before
  · exact (digit_facts (digits c digit)).1

theorem Kind.ascii (kind : Kind) : ∀ c ∈ kind.label.toList, c.toNat < 128 :=
  ascii_of_all (by cases kind <;> decide)

end Analysis

namespace Answers

open Analysis (Kind digit_facts)

/-- What is asked before an identifier. -/
def fixWords : List Char := "how to fix ".toList

/-! ## What the question mentions -/

variable {kind : Kind} {mark : List Char}

/-- The other phrases that are looked for do not stand in the question, since without its last
digits none of them does. -/
theorem mentions_eq_false (digits : ∀ c ∈ mark, c ∈ hexLetters) {phrases : List String}
    (stems : (phrases.all fun phrase =>
      !(phrase.toList.rdropWhile hexLetters.contains).isEmpty &&
        !occursIn (phrase.toList.rdropWhile hexLetters.contains) (fixWords ++ kind.lowered)) =
      true) : mentions (fixWords ++ (kind.lowered ++ mark)) phrases = false := by
  rw [mentions, any_eq_false]
  intro phrase member
  have stem := all_eq_true.mp stems phrase member
  rw [Bool.and_eq_true, Bool.not_eq_true', Bool.not_eq_true', isEmpty_eq_false_iff] at stem
  rw [holdsWord, ← append_assoc, Bool.not_eq_true]
  apply occursIn_append_eq_false _ stem.1 stem.2
  intro c digit
  exact contains_iff_mem.mpr (digits c digit)

theorem mentions_fix (rest : List Char) : mentions (fixWords ++ rest) ["how to fix"] = true := by
  rw [mentions, any_cons, holdsWord, Bool.or_eq_true, occursIn_iff]
  exact Or.inl ⟨[], [' '] ++ rest, rfl⟩

theorem longestFile?_eq_none {text : List Char} (pointless : '.' ∉ text) (done : List Char) :
    longestFile? done text = none := by
  induction text generalizing done with
  | nil => rfl
  | cons c rest ih =>
      rw [mem_cons, not_or] at pointless
      have other : ('.' == c) = false := beq_false_of_ne pointless.1
      simp [longestFile?, ih pointless.2, isPrefixOf, other]

/-- Without a point there is no file in a text. -/
theorem first?_fileName_eq_none {text : List Char} (pointless : '.' ∉ text) :
    first? fileName text = none := by
  have nowhere : ∀ suffix, suffix ≠ [] → suffix <:+ text → fileName suffix = none := by
    intro suffix _ ends
    have none : longestFile? [] (suffix.takeWhile isFileChar) = none := by
      apply longestFile?_eq_none
      intro member
      exact pointless (ends.subset ((List.takeWhile_prefix _).subset member))
    rw [fileName, none]
    rfl
  rw [first?, findMatches, matchesFrom_eq_nil nowhere]
  rfl

/-! ## The identifier in the question -/

/-- An identifier begins with one of two letters. -/
theorem issueId_eq_none {c : Char} (other : (isLetter 'p' c || isLetter 'j' c) = false)
    (rest : List Char) : issueId (c :: rest) = none := by
  rw [Bool.or_eq_false_iff] at other
  have first : afterAnyCase? "py".toList (c :: rest) = none := by
    change (if isLetter 'p' c then afterAnyCase? ['y'] rest else none) = none
    rw [other.1]
    rfl
  have second : afterAnyCase? "js".toList (c :: rest) = none := by
    change (if isLetter 'j' c then afterAnyCase? ['s'] rest else none) = none
    rw [other.2]
    rfl
  rw [issueId, first, second]
  rfl

/-- A code, a word and digits, with dashes between them, are an identifier. -/
theorem issueId_eq_some {code word : List Char} (coded : code = "py".toList ∨ code = "js".toList)
    (named : word ≠ []) (letters : ∀ c ∈ word, isWord c = true) (present : mark ≠ [])
    (digits : ∀ c ∈ mark, isMarkDigit c = true) :
    issueId (code ++ '-' :: (word ++ '-' :: mark)) = some ((), []) := by
  have opened : ((afterAnyCase? "py".toList (code ++ '-' :: (word ++ '-' :: mark))) <|>
      (afterAnyCase? "js".toList (code ++ '-' :: (word ++ '-' :: mark)))) =
      some ('-' :: (word ++ '-' :: mark)) := by
    rcases coded with rfl | rfl
    · rfl
    · rfl
  have middle : run? isWord (word ++ '-' :: mark) = some (word, '-' :: mark) :=
    run?_append named letters rfl
  have last : run? isMarkDigit mark = some (mark, []) := by
    have whole : run? isMarkDigit (mark ++ []) = some (mark, []) := run?_append present digits rfl
    rw [append_nil] at whole
    exact whole
  have dash : ∀ text : List Char, after? ['-'] ('-' :: text) = some text := fun _ => rfl
  simp only [issueId, opened, Option.bind_eq_bind, Option.bind_some, dash, middle, last]
  rfl

/-- The label of a survey is a code and a word with a dash behind each. -/
theorem lowered_eq (known : kind ≠ .language) :
    ∃ code word, kind.lowered = code ++ '-' :: (word ++ ['-']) ∧
      (code = "py".toList ∨ code = "js".toList) ∧ word ≠ [] ∧ word.all isWord = true := by
  refine ⟨kind.lowered.take 2, (kind.lowered.drop 3).dropLast, ?_⟩
  cases kind with
  | language => exact absurd rfl known
  | _ => decide

/-- The identifier is what is found in the question. -/
theorem findId?_eq (known : kind ≠ .language) (present : mark ≠ [])
    (digits : ∀ c ∈ mark, c ∈ hexLetters) :
    findId? (fixWords ++ (kind.lowered ++ mark)) = some (String.ofList (kind.lowered ++ mark)) := by
  have skipped : ∀ suffix, suffix ≠ [] → suffix <:+ fixWords →
      issueId (suffix ++ (kind.lowered ++ mark)) = none := by
    have all : (fixWords.all fun c => !(isLetter 'p' c || isLetter 'j' c)) = true := by decide
    intro suffix nonempty ends
    cases suffix with
    | nil => exact absurd rfl nonempty
    | cons c rest =>
        apply issueId_eq_none
        exact (Bool.not_eq_true' _).mp
          (all_eq_true.mp all c (ends.subset mem_cons_self))
  have found : issueId (kind.lowered ++ mark) = some ((), []) := by
    rcases lowered_eq known with ⟨code, word, label, coded, named, letters⟩
    rw [label, append_assoc, cons_append, append_assoc, singleton_append]
    apply issueId_eq_some coded named (all_eq_true.mp letters) present
    intro c member
    exact (digit_facts (digits c member)).2.2.1
  have nonempty : kind.lowered ++ mark ≠ [] := append_ne_nil_of_right_ne_nil _ present
  rcases head?_matchesFrom skipped nonempty found 0 1 none with ⟨first, is, text, length, _⟩
  rw [findId?, first?, findMatches, is, Option.map_some, text, length, length_nil,
    Nat.sub_zero, take_length]

/-! ## The issue in the report -/

open Report (Describes Lists)

/-- In a list of records with distinct identifiers that differ also in small letters, a record is
found by its identifier. -/
theorem findByLoweredId?_eq {absent : Option Json} {records : List Json} {findings : List Finding}
    {id target : String} (describe : Forall₂ (Describes absent) records findings)
    (unique : (findings.map Finding.id).Nodup)
    (apart : ∀ other ∈ findings, lowerString other.id = lowerString target → other.id = target)
    (asked : lowerString id = lowerString target) {record : Json} (member : record ∈ records)
    (own : record.get? "id" = some (.str target)) :
    findByLoweredId? id records = .ok (some record) := by
  induction describe with
  | nil => cases member
  | @cons head finding records findings describes rest ih =>
      rw [map_cons, nodup_cons] at unique
      have step : findByLoweredId? id (head :: records) =
          if lowerString finding.id = lowerString target then .ok (some head)
          else findByLoweredId? id records := by
        rw [findByLoweredId?, describes.member, describes.id, ← asked]
        rfl
      rw [step]
      split
      next same =>
        have equal := apart finding mem_cons_self same
        rcases mem_cons.mp member with rfl | below
        · rfl
        · rcases Report.exists_describes rest below with ⟨other, inside, found⟩
          rw [found.id] at own
          cases own
          exact absurd (equal ▸ mem_map_of_mem inside) unique.1
      next other =>
        rcases mem_cons.mp member with rfl | below
        · rw [describes.id] at own
          cases own
          exact absurd rfl other
        · apply ih unique.2 _ below
          intro another inside
          exact apart another (mem_cons_of_mem finding inside)

/-- A survey can make an identifier. -/
def MadeBySurvey (reading : Reading) (files : Files) (root : Files.Path) (id : String) : Prop :=
  ∃ language ∈ [RequestedLanguage.python, .script],
    ∃ finding ∈ (surveyed reading files root language).2, finding.id = id

section

variable {reading : Reading} {files : Files} {root : Files.Path}

variable {id : String}

/-- An identifier that a survey can make was made by a survey. -/
theorem MadeBySurvey.known {language : RequestedLanguage} {finding : Finding}
    (made : MadeBySurvey reading files root finding.id)
    (emission : Emission reading files root language kind finding) : kind ≠ .language := by
  rcases made with ⟨surveyed, listed, other, member, same⟩
  rcases emission_of_mem_surveyed member with ⟨otherKind, another⟩
  rw [emission.kind_eq another same.symm]
  rintro rfl
  cases another
  simp at listed

theorem lowerString_eq (spelled : id.toList = kind.label.toList ++ mark)
    (digits : ∀ c ∈ mark, c ∈ hexLetters) :
    lowerString id = String.ofList (kind.lowered ++ mark) := by
  rw [lowerString, spelled, lower_append_digits kind.ascii digits]
  rfl

/-- What is in small letters stays as it is. -/
theorem lowerString_lowered (spelled : id.toList = kind.label.toList ++ mark)
    (digits : ∀ c ∈ mark, c ∈ hexLetters) : lowerString (lowerString id) = lowerString id := by
  have settled : kind.lowered.map toLowerChar = kind.lowered := by
    cases kind <;> decide
  have ascii : ∀ c ∈ kind.lowered, c.toNat < 128 := ascii_of_all (by cases kind <;> decide)
  rw [lowerString_eq spelled digits, lowerString, String.toList_ofList,
    lower_append_digits ascii digits, settled]

/-- The question in small letters. -/
theorem lower_question (spelled : id.toList = kind.label.toList ++ mark)
    (digits : ∀ c ∈ mark, c ∈ hexLetters) :
    lower ("how to fix " ++ id).toList = fixWords ++ (kind.lowered ++ mark) := by
  have settled : fixWords.map toLowerChar = fixWords := by decide
  have ascii : ∀ c ∈ fixWords ++ kind.label.toList, c.toNat < 128 := by
    intro c member
    rcases mem_append.mp member with word | letter
    · exact ascii_of_all (by decide) c word
    · exact kind.ascii c letter
  have spelledOut : ("how to fix " ++ id).toList = (fixWords ++ kind.label.toList) ++ mark := by
    rw [String.toList_append, spelled, append_assoc]
    rfl
  rw [spelledOut, lower_append_digits ascii digits, map_append, settled,
    append_assoc]
  rfl

theorem point_notMem_question (kind : Kind) (digits : ∀ c ∈ mark, c ∈ hexLetters) :
    '.' ∉ fixWords ++ (kind.lowered ++ mark) := by
  have words : '.' ∉ fixWords ++ kind.lowered := by
    cases kind <;> decide
  rw [← append_assoc]
  intro member
  rcases mem_append.mp member with word | digit
  · exact words word
  · exact (digit_facts (digits _ digit)).2.2.2 rfl

theorem head?_lower_unknown (text : String) :
    (lower ("unknown-" ++ text).toList).head? = some 'u' := by
  rw [String.toList_append]
  rfl

/-- In small letters, an identifier of a survey differs from all others. -/
theorem id_eq_of_lowerString {language other : RequestedLanguage} {first second : Kind}
    {finding target : Finding} (emission : Emission reading files root language first finding)
    (another : Emission reading files root other second target) (known : second ≠ .language)
    (same : lowerString finding.id = lowerString target.id) : finding.id = target.id := by
  rcases another.marked known with ⟨mark, spelled, _, digits⟩
  by_cases unknown : first = .language
  · -- the label for a language that is not known begins with a letter of its own
    rcases emission.id_eq with ⟨text, opened⟩
    have letter : (lower finding.id.toList).head? = some 'u' := by
      rw [opened, unknown]
      exact head?_lower_unknown text
    have letters := congrArg (fun text : String => text.toList.head?) same
    rw [lowerString_eq spelled digits] at letters
    simp only [lowerString, String.toList_ofList, letter] at letters
    rcases lowered_eq known with ⟨code, word, label, coded | coded, _⟩
    · rw [label, coded] at letters
      cases letters
    · rw [label, coded] at letters
      cases letters
  · rcases emission.marked unknown with ⟨otherMark, otherSpelled, _, otherDigits⟩
    rw [lowerString_eq spelled digits, lowerString_eq otherSpelled otherDigits,
      String.ofList_inj] at same
    have kinds := Kind.eq_of_lowered_append same
    subst kinds
    have marks := append_cancel_left same
    apply String.toList_inj.mp
    rw [spelled, otherSpelled, marks]

/-- The question how to fix an issue is answered with what its record says. -/
theorem byWords_fix {absent : Option Json} {report : Json} {records : List Json}
    {findings : List Finding} (isRecord : ∃ first rest, report = .obj (first :: rest))
    (listed : report.get? "issues" = some (.arr records))
    (describe : Forall₂ (Describes absent) records findings)
    (sourced : Sourced reading files root findings) {record : Json} (member : record ∈ records)
    (own : record.get? "id" = some (.str id)) (made : MadeBySurvey reading files root id) :
    ∃ fix file, record.get? "suggested_fix" = some (.str fix) ∧
      record.get? "file" = some (.str file) ∧
      byWords report (.str ("how to fix " ++ id)) = .ok
        (answer ("Suggested fix for " ++ lowerString id ++ ": " ++ fix) [.str file] "high") := by
  rcases Report.exists_describes describe member with ⟨finding, inside, describes⟩
  have same : finding.id = id := by
    rw [describes.id] at own
    cases own
    rfl
  subst same
  rcases sourced.emission finding inside with ⟨language, kind, emission⟩
  have known := made.known emission
  rcases emission.exists_details known with ⟨details, present⟩
  rcases describes.placed details present with ⟨file, fix⟩
  refine ⟨details.suggestedFix, details.file, fix, file, ?_⟩
  rcases emission.marked known with ⟨mark, spelled, digit, digits⟩
  have question : lower ("how to fix " ++ finding.id).toList =
      fixWords ++ (kind.lowered ++ mark) := lower_question spelled digits
  have found : findByLoweredId? (lowerString finding.id) records = .ok (some record) := by
    apply findByLoweredId?_eq describe sourced.unique _ (lowerString_lowered spelled digits)
      member own
    intro other listed lowered
    rcases sourced.emission other listed with ⟨_, _, another⟩
    exact id_eq_of_lowerString another emission known lowered
  have fixing : fixAnswer records (lowerString finding.id) =
      .ok (answer ("Suggested fix for " ++ lowerString finding.id ++ ": " ++ details.suggestedFix)
        [.str details.file] "high") := by
    rw [fixAnswer, found]
    simp only [bind, Except.bind, source, fix, file, Option.getD_some, Json.display_str]
    rfl
  have severe : mentions (fixWords ++ (kind.lowered ++ mark)) ["top", "highest", "most severe"] =
      false := by
    apply mentions_eq_false digits
    cases kind <;> decide
  have tests : mentions (fixWords ++ (kind.lowered ++ mark))
      ["missing tests", "tests missing", "no tests"] = false := by
    apply mentions_eq_false digits
    cases kind <;> decide
  have pointless := point_notMem_question kind digits
  have named := findId?_eq known digit digits
  rw [← lowerString_eq spelled digits] at named
  have issues := Report.member_issues isRecord listed
  have lowered : (Json.str ("how to fix " ++ finding.id)).lowered =
      .ok (String.ofList (fixWords ++ (kind.lowered ++ mark))) := by
    rw [Json.lowered, lowerString, question]
  rw [byWords, lowered]
  simp only [bind, Except.bind, issues, String.toList_ofList, severe, tests, Bool.false_eq_true,
    if_false, first?_fileName_eq_none pointless, mentions_fix, named, Json.elements]
  exact fixing

end

/-- Every issue whose identifier was made by a survey can be asked about by it.  The analysis and
the report on it list the issue, and both answer the question how to fix it with what they say
themselves: the suggested fix, and the file as the source. -/
theorem every_issue_answers_to_its_id {request : Request} {files : Files} {path : String}
    {languages : Json} {isIndexed : Bool} {analysis : Analysis}
    (done : ofRepository request files path languages isIndexed = .ok analysis)
    (hasAdvisor : Bool) (environment : Environment) (now : Moment) (world : World) :
    ∃ root report, rootOf files path = .ok root ∧
      ((Report.generate hasAdvisor environment now analysis.toJson).run.run world).1 = .ok report ∧
      ∀ kept ∈ [analysis.toJson, report], ∃ records,
        kept.get? "issues" = some (.arr records) ∧
        records.map (·.get? "id") =
          analysis.issues.map (fun issue => some (.str issue.finding.id)) ∧
        ∀ record ∈ records, ∀ id, record.get? "id" = some (.str id) →
          MadeBySurvey request.reading files root id →
          ∃ fix file, record.get? "suggested_fix" = some (.str fix) ∧
            record.get? "file" = some (.str file) ∧
            byWords kept (.str ("how to fix " ++ id)) = .ok (.obj
              [("answer", .str ("Suggested fix for " ++ lowerString id ++ ": " ++ fix)),
                ("sources", .arr [.str file]), ("confidence", .str "high")]) := by
  rcases sourced_issues done with ⟨root, located, sourced⟩
  rcases Report.lists_generated done hasAdvisor environment now world with ⟨report, ran, generated⟩
  refine ⟨root, report, located, ran, ?_⟩
  intro kept member
  have lists : ∃ absent, Lists absent kept (analysis.issues.map ScoredFinding.finding) := by
    rcases mem_pair.mp member with rfl | rfl
    · exact ⟨_, Report.lists_analysis analysis⟩
    · exact ⟨_, generated⟩
  rcases lists with ⟨absent, isRecord, records, listed, describe⟩
  refine ⟨records, listed, ?_, ?_⟩
  · rw [forall₂_map_right_iff] at describe
    rw [← forall₂_eq_eq_eq, forall₂_map_left_iff, forall₂_map_right_iff]
    exact describe.imp fun _ _ describes => describes.id
  · intro record inside id own made
    exact byWords_fix isRecord listed describe sourced inside own made

/-- A directory with a script and without tests for it. -/
theorem madeBySurvey_twoLanguageFiles :
    MadeBySurvey plainRequest.reading twoLanguageFiles [] (Survey.Script.testingFinding []).id := by
  have isRepository : twoLanguageFiles.isDir [] = true := by
    rw [Files.isDir, Files.stat_nil]
    rfl
  have undescribed : twoLanguageFiles.holds ([] ++ ["package.json"]) = false := by
    rw [nil_append, Files.holds, Files.stat_singleton_absent rfl (by decide) rfl]
    rfl
  have untested : Survey.Script.hasTests twoLanguageFiles [] = false := by
    rw [Survey.Script.hasTests, undescribed, Files.visits, Files.stat_nil]
    decide +kernel
  refine ⟨.script, by simp, _, ?_, rfl⟩
  exact (mem_surveyed isRepository).mpr ⟨_, .scripts untested⟩

/-- In the report on a package and a script, with a language that is not known, the missing tests
for the script can be asked about. -/
theorem twoLanguageFiles_answer :
    ∃ analysis report, ofRepository plainRequest twoLanguageFiles "/"
        (.texts ["py", "js", "cobol"]) false = .ok analysis ∧
      ((Report.generate true [] plainRequest.now analysis.toJson).run.run
        Report.failingWorld).1 = .ok report ∧
      ∃ fix file, byWords report (.str ("how to fix " ++ (Survey.Script.testingFinding []).id)) =
        .ok (.obj [("answer", .str ("Suggested fix for " ++
            lowerString (Survey.Script.testingFinding []).id ++ ": " ++ fix)),
          ("sources", .arr [.str file]), ("confidence", .str "high")]) := by
  have listed : RequestedLanguage.list (.texts ["py", "js", "cobol"]) =
      .ok [.python, .script, .unknown "cobol"] := rfl
  have located := rootOf_slash twoLanguageFiles ⟨_, rfl⟩
  rcases ofRepository_eq plainRequest false ⟨_, rfl⟩ located listed with
    ⟨analysis, done, issues, _⟩
  rcases every_issue_answers_to_its_id done true [] plainRequest.now Report.failingWorld
    with ⟨root, report, rooted, ran, answers⟩
  have same : root = [] := by
    rw [located] at rooted
    cases rooted
    rfl
  subst same
  refine ⟨analysis, report, done, ran, ?_⟩
  rcases answers report (by simp) with ⟨records, _, ids, answered⟩
  have made := madeBySurvey_twoLanguageFiles
  have inside : some (Json.str (Survey.Script.testingFinding []).id) ∈
      records.map (·.get? "id") := by
    rcases made with ⟨language, asked, finding, found, same⟩
    have emitted : finding ∈ emitted plainRequest.reading
        twoLanguageFiles [] [.python, .script, .unknown "cobol"] :=
      mem_flatMap.mpr
        ⟨language, mem_append_left [RequestedLanguage.unknown "cobol"] asked, found⟩
    have kept := mem_eraseDups.mpr (mem_map_of_mem (f := Finding.id) emitted)
    rw [← map_id_distinct, same] at kept
    rcases mem_map.mp kept with ⟨last, distinct, named⟩
    rw [ids, issues, issuesOf, map_map, ← named]
    exact mem_map_of_mem (f := fun finding : Finding => some (Json.str finding.id)) distinct
  rcases mem_map.mp inside with ⟨record, member, own⟩
  rcases answered record member _ own made with ⟨fix, file, _, _, answer⟩
  exact ⟨fix, file, answer⟩

end Answers
end CodeQuality
