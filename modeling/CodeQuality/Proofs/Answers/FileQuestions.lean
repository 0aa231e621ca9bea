import CodeQuality.Proofs.Answers.FileNames
import CodeQuality.Proofs.Answers.Words

namespace CodeQuality

/-!
Asking for the issues in a file.

The question is read in small letters, and the name that is found in it is compared with the
paths as they are.  Two other kinds of questions are looked for before, by words that can also
stand in a path.  Main result: the question finds the issues of a file if and only if it does
not ask for something else, has a name of a file in it, and the paths with this name in them are
those with the file in them; for a path in small letters it is enough that it has neither of
two words in it and something before its ending.
-/

open Text Analysis Files List

namespace Answers

/-- What is asked before the name of a file. -/
def fileWords : List Char := "issues in ".toList

/-- The file in small letters, as it stands in the question. -/
def askedFile (file : String) : List Char := lowerAfter fileWords.reverse file.toList

/-- The question about a file, as it is read. -/
def askedAbout (file : String) : List Char := fileWords ++ askedFile file

/-- A question asks for something that is looked for before a file is. -/
def AsksOther (asked : List Char) : Prop :=
  ∃ phrase ∈ ["top", "highest", "most severe", "missing tests", "tests missing", "no tests"],
    phrase.toList <:+: asked

/-- The issues that are shown under the name of a file. -/
def shownUnder (records : List Json) (name : String) : List Json :=
  (records.filter (isFiledUnder name)).take 5

/-- There are issues that are shown under a name, and all of them are in files with a given one
in their path. -/
def ShowsOnly (records : List Json) (name file : String) : Prop :=
  shownUnder records name ≠ [] ∧
    ∀ record ∈ shownUnder records name, isFiledUnder file record = true

/-- The question about a file is answered with a list of issues, all of them in files with this
one in their path. -/
def FindsIssues (report : Json) (records : List Json) (file : String) : Prop :=
  ∃ name, ShowsOnly records name file ∧
    byWords report (.str ("issues in " ++ file)) =
      .ok (fileListing name (shownUnder records name))

/-! ## The question as it is read -/

theorem lower_question_eq (file : String) : lower ("issues in " ++ file).toList = askedAbout file := by
  have settled : fileWords.map toLowerChar = fileWords := by decide
  rw [String.toList_append, lower]
  change lowerAfter [] (fileWords ++ file.toList) = _
  rw [lowerAfter_append (ascii_of_all (by decide)), settled, append_nil]
  rfl

theorem mentions_iff {asked : List Char} {phrases : List String} :
    mentions asked phrases = true ↔ ∃ phrase ∈ phrases, phrase.toList <:+: asked := by
  rw [mentions, any_eq_true]
  refine exists_congr fun phrase => and_congr_right fun _ => ?_
  rw [holdsWord, occursIn_iff]

theorem asksOther_iff {asked : List Char} :
    AsksOther asked ↔ mentions asked ["top", "highest", "most severe"] = true ∨
      mentions asked ["missing tests", "tests missing", "no tests"] = true := by
  rw [AsksOther, mentions_iff, mentions_iff]
  simp only [mem_cons, not_mem_nil, or_false, exists_eq_or_imp, exists_eq_left, or_assoc]

/-! ## Answers to other questions -/

/-- An outcome is not a list of issues in a file. -/
def IsOther (outcome : Outcome Json) : Prop :=
  ∀ name listed, outcome ≠ .ok (fileListing name listed)

theorem IsOther.of_sources {text confidence : String} {sources : List Json}
    (other : ∀ name, sources ≠ [.str name]) : IsOther (.ok (answer text sources confidence)) := by
  intro name listed same
  have members := congrArg (Json.get? · "sources") (Except.ok.inj same)
  exact other name (Json.arr.inj (Option.some.inj members))

theorem IsOther.of_confidence {text confidence : String} {sources : List Json}
    (other : confidence ≠ "medium") : IsOther (.ok (answer text sources confidence)) := by
  intro name listed same
  have members := congrArg (Json.get? · "confidence") (Except.ok.inj same)
  exact other (Json.str.inj (Option.some.inj members))

theorem IsOther.bind {α : Type} {first : Outcome α} {next : α → Outcome Json}
    (second : ∀ value, IsOther (next value)) : IsOther (first >>= next) := by
  intro name listed same
  rcases Outcome.exists_of_bind same with ⟨value, _, done⟩
  exact second value name listed done

theorem isOther_severeAnswer (records : List Json) : IsOther (severeAnswer records) := by
  refine IsOther.bind fun top => ?_
  split
  · exact IsOther.of_confidence (by decide)
  · exact IsOther.of_confidence (by decide)

theorem isOther_testsAnswer (records : List Json) : IsOther (testsAnswer records) := by
  refine IsOther.bind fun missing => ?_
  split
  · exact IsOther.of_confidence (by decide)
  · exact IsOther.of_confidence (by decide)

theorem isOther_fixAnswer (records : List Json) (id : String) : IsOther (fixAnswer records id) := by
  refine IsOther.bind fun found => ?_
  split
  · exact IsOther.of_confidence (by decide)
  · exact IsOther.of_confidence (by decide)

theorem isOther_listAnswer (heading : String) (records : List Json) :
    IsOther (listAnswer heading records) :=
  IsOther.bind fun _ => IsOther.of_confidence (by decide)

theorem isOther_complexityAnswer (records : List Json) : IsOther (complexityAnswer records) := by
  refine IsOther.bind fun found => ?_
  split
  · exact IsOther.of_confidence (by decide)
  · exact isOther_listAnswer _ _

theorem isOther_securityAnswer (records : List Json) : IsOther (securityAnswer records) := by
  refine IsOther.bind fun found => ?_
  split
  · exact IsOther.of_confidence (by decide)
  · exact isOther_listAnswer _ _

/-! ## The answer to a question about a file -/

section

variable {absent : Option Json} {records : List Json}
  (known : ∀ record ∈ records, Known absent record) (filed : absent = none ∨ absent = some .null)

include known filed

theorem fileAnswer_of_shownUnder {name : String} (present : shownUnder records name ≠ []) :
    fileAnswer records name = .ok (fileListing name (shownUnder records name)) := by
  have found : (records.filter (isFiledUnder name)).isEmpty = false := by
    rw [isEmpty_eq_false_iff]
    intro none
    rw [shownUnder, none] at present
    exact present take_nil
  rw [fileAnswer_eq known filed, found]
  rfl

/-- An answer about a file has its name as the source. -/
theorem name_of_fileAnswer {name other : String} {listed : List Json}
    (answered : fileAnswer records other = .ok (fileListing name listed)) : name = other := by
  rw [fileAnswer_eq known filed] at answered
  have members := congrArg (Json.get? · "sources") (Except.ok.inj answered)
  split at members
  · exact (Json.str.inj (cons.inj (Json.arr.inj (Option.some.inj members))).1).symm
  · exact (Json.str.inj (cons.inj (Json.arr.inj (Option.some.inj members))).1).symm

end

section

variable {report : Json} {records : List Json}
  (isRecord : ∃ first rest, report = .obj (first :: rest))
  (listed : report.get? "issues" = some (.arr records))

include isRecord listed

/-- Unless a question asks for something else, it is about the first file that it names. -/
theorem byWords_cases (question : String) :
    (¬ AsksOther (lower question.toList) ∧ ∃ name, IsFirstName (lower question.toList) name ∧
        byWords report (.str question) = fileAnswer records (String.ofList name)) ∨
      (AsksOther (lower question.toList) ∨ ∀ name, ¬ IsFirstName (lower question.toList) name) ∧
        IsOther (byWords report (.str question)) := by
  have issues := Report.member_issues isRecord listed
  have asked : (Json.str question).lowered = .ok (String.ofList (lower question.toList)) := rfl
  rw [asksOther_iff, byWords, asked]
  simp only [bind, Except.bind, issues, String.toList_ofList, Json.elements]
  split
  next severe => exact Or.inr ⟨Or.inl (Or.inl severe), isOther_severeAnswer records⟩
  next unsevere =>
    split
    next tests => exact Or.inr ⟨Or.inl (Or.inr tests), isOther_testsAnswer records⟩
    next untested =>
      rcases first?_fileName_cases (lower question.toList) with
        ⟨found, named, first⟩ | ⟨nameless, nowhere⟩
      · rw [named]
        exact Or.inl ⟨not_or.mpr ⟨unsevere, untested⟩, found.value, first, rfl⟩
      · rw [nameless]
        refine Or.inr ⟨Or.inr fun name first => ?_, ?_⟩
        · rcases first.first with ⟨front, rest, whole, _⟩
          exact nowhere name first.isName ⟨front, rest, whole.symm⟩
        · dsimp only
          split
          next => exact isOther_fixAnswer records _
          next =>
            split
            next => exact isOther_complexityAnswer records
            next =>
              split
              next => exact isOther_securityAnswer records
              next =>
                refine IsOther.bind fun score => IsOther.bind fun summary => ?_
                exact IsOther.of_sources fun name => (cons_ne_nil _ _).symm

theorem byWords_of_isFirstName {question : String} {name : List Char}
    (same : ¬ AsksOther (lower question.toList))
    (first : IsFirstName (lower question.toList) name) :
    byWords report (.str question) = fileAnswer records (String.ofList name) := by
  rcases byWords_cases isRecord listed question with ⟨_, found, named, is⟩ | ⟨other | nameless, _⟩
  · rw [is, first.unique named]
  · exact absurd other same
  · exact absurd first (nameless name)

variable {absent : Option Json} (known : ∀ record ∈ records, Known absent record)
  (filed : absent = none ∨ absent = some .null)

include known filed

/-- When the question about a file finds its issues. -/
theorem findsIssues_iff (file : String) :
    FindsIssues report records file ↔
      ¬ AsksOther (askedAbout file) ∧
        ∃ name, IsFirstName (askedAbout file) name ∧
          ShowsOnly records (String.ofList name) file := by
  rw [← lower_question_eq]
  constructor
  · rintro ⟨name, shows, answered⟩
    rcases byWords_cases isRecord listed ("issues in " ++ file) with
      ⟨same, found, first, is⟩ | ⟨_, isOther⟩
    · rw [is] at answered
      cases name_of_fileAnswer known filed answered
      exact ⟨same, found, first, shows⟩
    · exact absurd answered (isOther name _)
  · rintro ⟨same, name, first, shows⟩
    refine ⟨_, shows, ?_⟩
    rw [byWords_of_isFirstName isRecord listed same first]
    exact fileAnswer_of_shownUnder known filed shows.1

end

/-! ## The file in the question -/

theorem isFileChar_space : isFileChar ' ' = false := by decide

theorem space_notMem {text : List Char} (letters : ∀ c ∈ text, isFileChar c = true) :
    ' ' ∉ text := by
  intro member
  have letter := letters ' ' member
  rw [isFileChar_space] at letter
  cases letter

theorem IsEnded.point_mem {name : List Char} (ended : IsEnded name) : '.' ∈ name := by
  rcases ended.exists_stem with ⟨stem, ending, _, rfl | rfl, rfl⟩
  · exact mem_append_right stem mem_cons_self
  · exact mem_append_right stem mem_cons_self

/-- A name stands behind the words of the question, since these have no point. -/
theorem behind_fileWords {lowered before other after : List Char}
    (same : fileWords ++ lowered = before ++ other ++ after) (isName : IsSourceName other) :
    ∃ between, before = fileWords ++ between ∧ lowered = between ++ (other ++ after) := by
  rw [append_assoc] at same
  rcases append_eq_append_iff.mp same with behind | ⟨cut, words, rest⟩
  · exact behind
  · rcases eq_nil_or_concat cut with rfl | ⟨inner, last, rfl⟩
    · exact ⟨[], by rw [words, append_nil, append_nil], rest.symm⟩
    · rw [concat_eq_append] at words rest
      have final : last = ' ' := by
        have ends := congrArg getLast? words
        rw [← append_assoc, getLast?_concat] at ends
        exact (Option.some.inj ends).symm
      subst final
      rw [append_assoc, singleton_append] at rest
      have opens := prefix_of_notMem (space_notMem isName.letters)
        (rest ▸ prefix_append other after)
      have pointed : '.' ∈ fileWords := by
        rw [words]
        exact mem_append_right before
          (mem_append_left [' '] (opens.subset isName.ended.point_mem))
      exact absurd pointed (by decide)

section

variable {lowered : List Char} (letters : ∀ c ∈ lowered, isFileChar c = true)

theorem isFirstName_fileWords (isName : IsSourceName lowered) :
    IsFirstName (fileWords ++ lowered) lowered := by
  refine ⟨isName, fileWords, [], (append_nil _).symm, ?_⟩
  intro before other after same isOther
  rcases behind_fileWords same isOther with ⟨between, rfl, rfl⟩
  rw [length_append, length_append, length_append]
  omega

include letters

/-- A path in the question is its first name, unless nothing stands before the ending. -/
theorem isFirstName_fileWords_iff {ending : List Char} (isEnding : IsEnding ending)
    (ends : ending <:+ lowered) {name : List Char} :
    IsFirstName (fileWords ++ lowered) name ↔ name = lowered ∧ 3 < lowered.length := by
  have isName : 3 < lowered.length → IsSourceName lowered := by
    intro long
    refine ⟨letters, long, ?_⟩
    rcases isEnding with rfl | rfl
    · exact Or.inl ends
    · exact Or.inr ends
  constructor
  · intro first
    rcases first.first with ⟨front, rest, whole, _⟩
    rcases behind_fileWords whole first.isName with ⟨between, _, same⟩
    have long : 3 < lowered.length := by
      have longer := first.isName.ended.1
      rw [same, length_append, length_append]
      omega
    exact ⟨first.unique (isFirstName_fileWords (isName long)), long⟩
  · rintro ⟨rfl, long⟩
    exact isFirstName_fileWords (isName long)

/-- Only words without a blank can be in the path. -/
theorem asksOther_fileWords_iff :
    AsksOther (fileWords ++ lowered) ↔
      "top".toList <:+: lowered ∨ "highest".toList <:+: lowered := by
  have spaceless := space_notMem letters
  have whole : fileWords ++ lowered = "issues in".toList ++ ' ' :: lowered := rfl
  have one : ∀ phrase : List Char, ' ' ∉ phrase → ¬ phrase <:+: "issues in".toList →
      (phrase <:+: fileWords ++ lowered ↔ phrase <:+: lowered) := by
    intro phrase absent elsewhere
    constructor
    · intro inside
      exact (infix_of_notMem absent (whole ▸ inside)).resolve_left elsewhere
    · intro inside
      exact inside.trans (suffix_append _ _).isInfix
  have several : ∀ phrase : List Char, phrase.rdropWhile (· != ' ') ≠ [] →
      occursIn (phrase.rdropWhile (· != ' ')) fileWords = false →
      ¬ phrase <:+: fileWords ++ lowered := by
    intro phrase stemmed absent
    rw [← occursIn_iff, Bool.not_eq_true]
    apply occursIn_append_eq_false _ stemmed absent
    intro c member
    exact bne_iff_ne.mpr fun same => spaceless (same ▸ member)
  have top := one "top".toList (by decide) (by rw [← occursIn_iff]; decide)
  have highest := one "highest".toList (by decide) (by rw [← occursIn_iff]; decide)
  have severe := several "most severe".toList (by decide) (by decide)
  have missing := several "missing tests".toList (by decide) (by decide)
  have tests := several "tests missing".toList (by decide) (by decide)
  have none := several "no tests".toList (by decide) (by decide)
  simp only [AsksOther, mem_cons, not_mem_nil, or_false, exists_eq_or_imp,
    exists_eq_left, top, highest, severe, missing, tests, none]

end

/-- The ending of a path stays as it is. -/
theorem ends_askedFile {file : String} {ending : List Char} (isEnding : IsEnding ending)
    (ends : ending <:+ file.toList) : ending <:+ askedFile file := by
  have settled : (∀ c ∈ ending, c.toNat < 128) ∧ ending.map toLowerChar = ending := by
    rcases isEnding with rfl | rfl
    · exact ⟨ascii_of_all (by decide), by decide⟩
    · exact ⟨ascii_of_all (by decide), by decide⟩
  rcases ends with ⟨stem, whole⟩
  rcases exists_lowerAfter_append settled.1 fileWords.reverse stem with ⟨small, lowered⟩
  rw [askedFile, ← whole, lowered, settled.2]
  exact suffix_append _ _

/-- What is shown under a path is in the file, and the file's own issues are there. -/
theorem showsOnly_self {records : List Json} {record : Json} {file : String}
    (member : record ∈ records) (own : record.get? "file" = some (.str file))
    (present : file.toList ≠ []) : ShowsOnly records file file := by
  have filed : isFiledUnder file record = true := by
    have nonempty : file ≠ "" := fun empty => present (congrArg String.toList empty)
    have inside : occursIn file.toList file.toList = true := occursIn_iff.mpr (infix_refl _)
    simp [isFiledUnder, own, inside, nonempty]
  constructor
  · intro none
    have inside : record ∈ records.filter (isFiledUnder file) :=
      mem_filter.mpr ⟨member, filed⟩
    rcases take_eq_nil_iff.mp none with zero | empty
    · cases zero
    · rw [empty] at inside
      cases inside
  · intro other shown
    exact (mem_filter.mp (mem_of_mem_take shown)).2

section

variable {report : Json} {records : List Json} {file : String} {ending : List Char}
  (isEnding : IsEnding ending) (ends : ending <:+ file.toList)
  (general : FindsIssues report records file ↔
    ¬ AsksOther (askedAbout file) ∧
      ∃ name, IsFirstName (askedAbout file) name ∧ ShowsOnly records (String.ofList name) file)

include isEnding ends general

/-- When the question about a file finds its issues, if also in small letters the path has the
characters of a name. -/
theorem findsIssues_iff_of_letters (letters : ∀ c ∈ askedFile file, isFileChar c = true) :
    FindsIssues report records file ↔
      3 < (askedFile file).length ∧ ¬ "top".toList <:+: askedFile file ∧
        ¬ "highest".toList <:+: askedFile file ∧
        ShowsOnly records (String.ofList (askedFile file)) file := by
  rw [general, askedAbout, asksOther_fileWords_iff letters, not_or]
  constructor
  · rintro ⟨⟨top, highest⟩, name, first, shows⟩
    rcases (isFirstName_fileWords_iff letters isEnding (ends_askedFile isEnding ends)).mp first with
      ⟨rfl, long⟩
    exact ⟨long, top, highest, shows⟩
  · rintro ⟨long, top, highest, shows⟩
    refine ⟨⟨top, highest⟩, _, ?_, shows⟩
    exact (isFirstName_fileWords_iff letters isEnding (ends_askedFile isEnding ends)).mpr
      ⟨rfl, long⟩

/-- When the question about a file in small letters finds its issues. -/
theorem findsIssues_iff_of_small {record : Json} (member : record ∈ records)
    (own : record.get? "file" = some (.str file))
    (letters : ∀ c ∈ file.toList, isFileChar c = true) (small : askedFile file = file.toList) :
    FindsIssues report records file ↔
      3 < file.toList.length ∧ ¬ "top".toList <:+: file.toList ∧
        ¬ "highest".toList <:+: file.toList := by
  have spelled := findsIssues_iff_of_letters isEnding ends general
  rw [small, String.ofList_toList] at spelled
  rw [spelled letters]
  constructor
  · rintro ⟨long, top, highest, _⟩
    exact ⟨long, top, highest⟩
  · rintro ⟨long, top, highest⟩
    exact ⟨long, top, highest, showsOnly_self member own (ne_nil_of_length_pos (by omega))⟩

end

theorem file_of_describes {record : Json} {finding : Finding}
    (describes : Report.Describes none record finding) :
    record.get? "file" = finding.file?.map Json.str := by
  cases present : finding.details with
  | none =>
      rw [describes.placeless present, Finding.file?, present]
      rfl
  | some details =>
      rw [(describes.placed details present).1, Finding.file?, present]
      rfl

/-- The record of an analysis lists its issues and tells their files. -/
theorem exists_records {request : Request} {files : Files} {path : String}
    {languages : Json} {isIndexed : Bool} {analysis : Analysis}
    (done : ofRepository request files path languages isIndexed = .ok analysis) :
    ∃ records, (∃ first rest, analysis.toJson = .obj (first :: rest)) ∧
      analysis.toJson.get? "issues" = some (.arr records) ∧
      records.map (·.get? "file") =
        analysis.issues.map (fun issue => issue.finding.file?.map Json.str) ∧
      ∀ record ∈ records, Known none record := by
  rcases sourced_issues done with ⟨root, _, sourced⟩
  rcases Report.lists_analysis analysis with ⟨isRecord, records, listed, describe⟩
  refine ⟨records, isRecord, listed, ?_, fun _ => known_of_sourced describe sourced⟩
  rw [forall₂_map_right_iff] at describe
  rw [← forall₂_eq_eq_eq, forall₂_map_left_iff, forall₂_map_right_iff]
  exact describe.imp fun _ _ describes => file_of_describes describes

/-- Asking about a file.  An analysis lists its issues.  The question about the file of one of them
finds issues in this file if and only if nothing else is asked, and what is shown under the first
name in the question is in this file.  If also in small letters the path has the characters of a
name, this name is the whole path in small letters.  A path that is in small letters is found
unless it has one of two words in it or is no more than an ending. -/
theorem file_question_finds_iff {request : Request} {files : Files} {path : String}
    {languages : Json} {isIndexed : Bool} {analysis : Analysis}
    (done : ofRepository request files path languages isIndexed = .ok analysis) :
    ∃ records, analysis.toJson.get? "issues" = some (.arr records) ∧
      records.map (·.get? "file") =
        analysis.issues.map (fun issue => issue.finding.file?.map Json.str) ∧
      ∀ record ∈ records, ∀ file, record.get? "file" = some (.str file) →
        (∀ c ∈ file.toList, isFileChar c = true) →
        (".py".toList <:+ file.toList ∨ ".js".toList <:+ file.toList) →
        (FindsIssues analysis.toJson records file ↔
          ¬ AsksOther (askedAbout file) ∧
            ∃ name, IsFirstName (askedAbout file) name ∧
              ShowsOnly records (String.ofList name) file) ∧
        ((∀ c ∈ askedFile file, isFileChar c = true) →
          (FindsIssues analysis.toJson records file ↔
            3 < (askedFile file).length ∧ ¬ "top".toList <:+: askedFile file ∧
              ¬ "highest".toList <:+: askedFile file ∧
              ShowsOnly records (String.ofList (askedFile file)) file)) ∧
        (askedFile file = file.toList →
          (FindsIssues analysis.toJson records file ↔
            3 < file.toList.length ∧ ¬ "top".toList <:+: file.toList ∧
              ¬ "highest".toList <:+: file.toList)) := by
  rcases exists_records done with ⟨records, isRecord, listed, told, known⟩
  refine ⟨records, listed, told, ?_⟩
  intro record member file own letters ends
  have general := findsIssues_iff isRecord listed known (Or.inl rfl) file
  have ended : ∃ ending, IsEnding ending ∧ ending <:+ file.toList := by
    rcases ends with first | second
    · exact ⟨_, Or.inl rfl, first⟩
    · exact ⟨_, Or.inr rfl, second⟩
  rcases ended with ⟨ending, isEnding, ends⟩
  exact ⟨general, findsIssues_iff_of_letters isEnding ends general,
    findsIssues_iff_of_small isEnding ends general member own letters⟩

/-- A directory with one file, in which there is a note. -/
def notedFile (name : String) : Files :=
  ⟨.dir [(name, .file (.bytes (textBytes "# TODO")))], []⟩

section

variable {name : String} (down : name ≠ "..")

theorem sourcePaths_notedFile (ends : endsWith ".py" name = true) :
    Survey.Python.sourcePaths (notedFile name) [] = [[name]] := by
  rw [Survey.Python.sourcePaths, visits, stat_nil]
  simp [notedFile, Entry.visits, visitsBelow, folderNames, fileNames,
    Entry.isFolder, ends, Survey.isKept, Survey.ignoredDirectories]

include down

theorem stat_notedFile : (notedFile name).stat [name] = .ok (.file (.bytes (textBytes "# TODO"))) :=
  stat_singleton rfl down (if_pos rfl) rfl

theorem packages_notedFile : Survey.Python.packages (notedFile name) [] = [] := by
  have listing : (notedFile name).list [] = [name] := by
    rw [list, stat_nil]
    rfl
  have solid : (notedFile name).isDir [name] = false := by
    rw [isDir, stat_notedFile down]
  rw [Survey.Python.packages, listing]
  simp [solid]

theorem todo_mem_notedFile :
    (⟨1, "# TODO"⟩ : Todo) ∈ todos (sourceAt (notedFile name) [] [name]) := by
  have read : (⟨1, "# TODO"⟩ : Todo) ∈
      todos (unifyNewlines (decodeLenient (textBytes "# TODO"))) := by
    decide +kernel
  rw [sourceAt, nil_append, readLenient, open?, stat_notedFile down]
  exact read

variable (ends : endsWith ".py" name = true)

include ends

/-- Whatever is found, it is found in the file. -/
theorem file?_of_emission {kind : Kind} {finding : Finding}
    (emission : Emission plainRequest.reading (notedFile name) [] .python kind
      finding) : finding.file? = some name := by
  have only : ∀ path ∈ Survey.Python.sourcePaths (notedFile name) [],
      some (relativeText path) = some name := by
    intro path inside
    rw [sourcePaths_notedFile ends] at inside
    rw [mem_singleton.mp inside]
    rfl
  cases emission with
  | parsing inside => exact only _ inside
  | complexity inside => exact only _ inside
  | note inside => exact only _ inside
  | danger inside => exact only _ inside
  | package _ inside =>
      rw [packages_notedFile down] at inside
      cases inside

theorem exists_emission :
    ∃ kind finding, Emission plainRequest.reading (notedFile name) [] .python kind finding := by
  have inside : [name] ∈ Survey.Python.sourcePaths (notedFile name) [] := by
    rw [sourcePaths_notedFile ends]
    exact mem_singleton_self _
  cases parsed : plainRequest.reading.tools.parse
      (sourceAt (notedFile name) [] [name]) with
  | error fault => exact ⟨_, _, .parsing inside parsed⟩
  | ok tree => exact ⟨_, _, .note inside parsed (todo_mem_notedFile down)⟩

theorem exists_analysis_notedFile :
    ∃ analysis, ofRepository plainRequest (notedFile name) "/" (.texts ["py"])
        false = .ok analysis ∧
      analysis.issues ≠ [] ∧ ∀ issue ∈ analysis.issues, issue.finding.file? = some name := by
  have located := rootOf_slash (notedFile name) ⟨_, rfl⟩
  have isRepository := isDir_of_rootOf ⟨_, rfl⟩ located
  have listed : RequestedLanguage.list (.texts ["py"]) = .ok [.python] := rfl
  rcases ofRepository_eq plainRequest false ⟨_, rfl⟩ located listed with
    ⟨analysis, done, issues, _⟩
  have findings : analysis.issues.map ScoredFinding.finding = distinct
      (emitted plainRequest.reading (notedFile name) [] [.python]) := by
    rw [issues, issuesOf, map_finding_withScore]
  refine ⟨analysis, done, ?_, ?_⟩
  · rcases exists_emission down ends with ⟨kind, finding, emission⟩
    have emitted := (mem_emitted isRepository).mpr
      ⟨.python, mem_singleton_self _, kind, emission⟩
    rcases exists_isLast emitted with ⟨last, isLast, _⟩
    have kept := (mem_distinct _ last).mpr isLast
    intro none
    rw [← findings, none] at kept
    cases kept
  · intro issue member
    have kept := mem_map_of_mem (f := ScoredFinding.finding) member
    rw [findings] at kept
    rcases (mem_emitted isRepository).mp ((mem_distinct _ _).mp kept).mem with
      ⟨language, asked, kind, emission⟩
    cases mem_singleton.mp asked
    exact file?_of_emission down ends emission

end

/-- The records of an analysis whose issues are in one file tell that file. -/
theorem exists_record_notedFile {analysis : Analysis} {records : List Json} {name : String}
    (told : records.map (·.get? "file") =
      analysis.issues.map (fun issue => issue.finding.file?.map Json.str))
    (present : analysis.issues ≠ [])
    (only : ∀ issue ∈ analysis.issues, issue.finding.file? = some name) :
    (∃ record, record ∈ records) ∧ ∀ record ∈ records, record.get? "file" = some (.str name) := by
  constructor
  · apply exists_mem_of_ne_nil
    rintro rfl
    exact present (map_eq_nil_iff.mp told.symm)
  · intro record member
    have inside := mem_map_of_mem (f := (·.get? "file")) member
    rw [told] at inside
    rcases mem_map.mp inside with ⟨issue, listed, same⟩
    rw [← same, only issue listed]
    rfl

/-- A file in small letters is found. -/
theorem notedFile_found :
    ∃ analysis records, ofRepository plainRequest (notedFile "app.py") "/"
        (.texts ["py"]) false = .ok analysis ∧
      analysis.toJson.get? "issues" = some (.arr records) ∧
      (∃ record ∈ records, record.get? "file" = some (.str "app.py")) ∧
      FindsIssues analysis.toJson records "app.py" := by
  rcases @exists_analysis_notedFile "app.py" (by decide) (by decide) with
    ⟨analysis, done, present, only⟩
  rcases file_question_finds_iff done with ⟨records, listed, told, found⟩
  rcases exists_record_notedFile told present only with ⟨⟨record, member⟩, all⟩
  have letters : ("app.py".toList.all isFileChar) = true := by decide
  have small := found record member "app.py" (all record member) (all_eq_true.mp letters)
    (Or.inl (by decide))
  refine ⟨analysis, records, done, listed, ⟨record, member, all record member⟩, ?_⟩
  refine (small.2.2 (by decide)).mpr ⟨by decide, ?_, ?_⟩
  · rw [← occursIn_iff]
    decide
  · rw [← occursIn_iff]
    decide

/-- A file with a capital letter in its name is not found, though it has issues. -/
theorem capitalFile_missed :
    ∃ analysis records, ofRepository plainRequest (notedFile "App.py") "/"
        (.texts ["py"]) false = .ok analysis ∧
      analysis.toJson.get? "issues" = some (.arr records) ∧
      (∃ record ∈ records, record.get? "file" = some (.str "App.py")) ∧
      byWords analysis.toJson (.str "issues in App.py") =
        .ok (answer "No issues found for app.py." [.str "app.py"] "medium") ∧
      ¬ FindsIssues analysis.toJson records "App.py" := by
  rcases @exists_analysis_notedFile "App.py" (by decide) (by decide) with
    ⟨analysis, done, present, only⟩
  rcases exists_records done with ⟨records, isRecord, listed, told, known⟩
  rcases exists_record_notedFile told present only with ⟨⟨record, member⟩, all⟩
  have letters : ∀ c ∈ "app.py".toList, isFileChar c = true := by
    have each : ("app.py".toList.all isFileChar) = true := by decide
    exact all_eq_true.mp each
  have asked : lower ("issues in " ++ "App.py").toList = fileWords ++ "app.py".toList := by decide
  have same : ¬ AsksOther (fileWords ++ "app.py".toList) := by
    rw [asksOther_fileWords_iff letters, ← occursIn_iff, ← occursIn_iff]
    decide
  have first : IsFirstName (fileWords ++ "app.py".toList) "app.py".toList :=
    isFirstName_fileWords ⟨letters, by decide, Or.inl (by decide)⟩
  have nothing : records.filter (isFiledUnder "app.py") = [] := by
    rw [filter_eq_nil_iff]
    intro other inside
    rw [isFiledUnder, all other inside]
    decide
  have answered := byWords_of_isFirstName isRecord listed (asked ▸ same) (asked ▸ first)
  rw [String.ofList_toList] at answered
  refine ⟨analysis, records, done, listed, ⟨record, member, all record member⟩, ?_, ?_⟩
  · rw [fileAnswer_eq known (Or.inl rfl), nothing] at answered
    exact answered
  · rintro ⟨name, shows, listing⟩
    cases name_of_fileAnswer known (Or.inl rfl) (answered.symm.trans listing)
    rw [ShowsOnly, shownUnder, nothing] at shows
    exact shows.1 take_nil

end Answers
end CodeQuality
