import CodeQuality.Proofs.Answers.Words
import CodeQuality.Proofs.Archive.Contents
import CodeQuality.Proofs.LanguageModel.Consent

namespace CodeQuality

/-!
Questions to the web service about the reports of an archive.

Without consent to the language model, a question about a report is answered from its
words.  The answer then has to pass the rules for answers, and these take no source that
is absent.  A question about a report that is not there fails with the fault of the
archive itself, while a request for that report is refused.
-/

open CodeQuality.Action LanguageModel
open Answers (Gives IsText LacksSource)

namespace Rule

/-! ## The rules for answers -/

theorem exists_texts {values : List Json} (texts : ∀ value ∈ values, IsText value) :
    ∃ files : List String, values = files.map .str := by
  induction values with
  | nil => exact ⟨[], rfl⟩
  | cons value rest ih =>
      rcases texts value List.mem_cons_self with ⟨file, rfl⟩
      rcases ih fun other member => texts other (List.mem_cons_of_mem _ member) with ⟨files, rfl⟩
      exact ⟨file :: files, rfl⟩

theorem itemsFrom_texts (files : List String) (position : Nat) :
    itemsFrom text position (files.map .str) = .ok (files.map .str) := by
  induction files generalizing position with
  | nil => rfl
  | cons file files ih =>
      rw [List.map_cons, itemsFrom, ih]
      rfl

/-- Where texts are wanted, an absent item is a violation, and so are all others. -/
theorem itemsFrom_absent {items : List Json} (accepted : ∀ item ∈ items, item = .null ∨ IsText item)
    (absent : .null ∈ items) (position : Nat) :
    ∃ violations, itemsFrom text position items = .error (.invalid violations) := by
  induction items generalizing position with
  | nil => cases absent
  | cons item rest ih =>
      have others := fun other member => accepted other (List.mem_cons_of_mem item member)
      rw [itemsFrom]
      by_cases later : .null ∈ rest
      · rcases ih others later (position + 1) with ⟨violations, refused⟩
        rw [refused]
        rcases accepted item List.mem_cons_self with rfl | ⟨file, rfl⟩
        · exact ⟨_, rfl⟩
        · exact ⟨_, rfl⟩
      · have texts : ∀ other ∈ rest, IsText other := fun other member =>
          (others other member).resolve_left fun null => later (null ▸ member)
        rcases exists_texts texts with ⟨files, rfl⟩
        have null : item = .null := ((List.mem_cons.mp absent).resolve_right later).symm
        rw [null, itemsFrom_texts]
        exact ⟨_, rfl⟩

section

variable {sources : List Json} (content confidence : String)

theorem accept_sources : (required "sources" (listOf text)).accept
    [("answer", .str content), ("sources", .arr sources), ("confidence", .str confidence)] =
    (listOf text (.arr sources)).mapError (Fault.within (.name "sources")) := rfl

theorem body_answer_of_ok {items : List Json} (accepted : itemsFrom text 0 sources = .ok items) :
    body Schema.answerFields (Answers.answer content sources confidence) = .ok (.obj
      [("answer", .str content), ("sources", .arr items), ("confidence", .str confidence)]) := by
  rw [Answers.answer, Advisor.answerRecord, Schema.answerFields, body, fields, fields,
    accept_sources, listOf, accepted]
  rfl

theorem body_answer_of_error {violations : List Violation}
    (refused : itemsFrom text 0 sources = .error (.invalid violations)) :
    ∃ located, body Schema.answerFields (Answers.answer content sources confidence) =
      .error (.invalid located) := by
  rw [Answers.answer, Advisor.answerRecord, Schema.answerFields, body, fields, fields,
    accept_sources, listOf, refused]
  exact ⟨_, rfl⟩

end

end Rule

namespace WebService

/-! ## Questions and requests -/

/-- The body of a question about a report. -/
def asking (id : Int) (question : String) : Json :=
  .obj [("report_id", .int id), ("question", .str question)]

section

variable {setting : Setting} {world : World} {id : Int}

theorem run_getReport (id : Json) (world : World) :
    (getReport id).run.run world = (world.archive.get id, world) :=
  run_ofOutcome (world.archive.get id) world

theorem run_outcome_getReport (id : Json) (world : World) :
    (getReport id).outcome.run.run world = (.ok (world.archive.get id), world) := by
  change (Except.ok ((getReport id).run.run world).1, ((getReport id).run.run world).2) = _
  rw [run_getReport]

theorem run_report_of_ok {found : Json} (got : world.archive.get (.int id) = .ok found)
    (full : found.isTruthy = true) : (report (.int id)).run.run world = (.ok found, world) := by
  have fetched := run_outcome_getReport (.int id) world
  rw [got] at fetched
  rw [report, run_bind_of_ok fetched]
  simp only [full, if_true]
  rfl

theorem run_report_of_error {fault : Fault} (got : world.archive.get (.int id) = .error fault) :
    (report (.int id)).run.run world = (.error (notFound (.int id)), world) := by
  have fetched := run_outcome_getReport (.int id) world
  rw [got] at fetched
  rw [report, run_bind_of_ok fetched]
  rfl

theorem body_asking (id : Int) (text : String) :
    Rule.body Schema.questionFields (asking id text) = .ok (asking id text) := rfl

theorem run_question_of_error {fault : Fault} (got : world.archive.get (.int id) = .error fault)
    (text : String) :
    (question setting (asking id text)).run.run world = (.error fault, world) := by
  have fetched := run_getReport (.int id) world
  rw [got] at fetched
  rw [question, body_asking, run_bind_of_ok (run_ofOutcome _ world)]
  exact run_bind_of_error fetched _

/-- Without consent to the language model a question is answered by its words, if the configuration
can be read. -/
theorem run_ask {environment : Environment} (withholds : environment.Withholds)
    (hasAdvisor : Bool) (report text : Json) (world : World) :
    (Answers.ask hasAdvisor environment report text).run.run world =
      (Config.load environment >>= fun _ => Answers.byWords report text, world) := by
  rw [Answers.ask]
  cases loaded : Config.load environment with
  | error fault => rfl
  | ok config =>
      rw [run_bind_of_ok (run_ofOutcome _ world),
        isEnabled_of_withholds withholds loaded]
      exact run_ofOutcome _ world

theorem run_question_of_ok {found : Json} (got : world.archive.get (.int id) = .ok found)
    (full : found.isTruthy = true) (withholds : setting.environment.Withholds) (text : String) :
    (question setting (asking id text)).run.run world =
      (Config.load setting.environment >>= fun _ => Answers.byWords found (.str text) >>=
        Rule.body Schema.answerFields, world) := by
  have fetched := run_getReport (.int id) world
  rw [got] at fetched
  have asked := run_ask withholds setting.hasAdvisor found (.str text) world
  rw [question, body_asking, run_bind_of_ok (run_ofOutcome _ world)]
  refine (run_bind_of_ok fetched _).trans ?_
  simp only [full, if_true]
  refine (run_bind_of_outcomes asked fun answer => run_ofOutcome _ world).trans ?_
  rw [bind_assoc]

end

/-! ## Reports of the archive -/

/-- What is kept lists findings of surveys. -/
theorem exists_lists {kept : Json} (filed : Filed kept) :
    ∃ absent findings reading files root, (absent = none ∨ absent = some .null) ∧
      Report.Lists absent kept findings ∧ Analysis.Sourced reading files root findings := by
  cases filed with
  | analysis done =>
      rcases Analysis.sourced_issues done with ⟨root, _, sourced⟩
      exact ⟨_, _, _, _, root, Or.inl rfl, Report.lists_analysis _, sourced⟩
  | @report _ _ _ _ _ _ hasAdvisor environment now world _ _ done generated =>
      rcases Analysis.sourced_issues done with ⟨root, _, sourced⟩
      rcases Report.lists_generated done hasAdvisor environment now world with ⟨report, ran, lists⟩
      rw [generated] at ran
      cases ran
      exact ⟨_, _, _, _, root, Or.inr rfl, lists, sourced⟩

theorem isTruthy_of_filed {kept : Json} (filed : Filed kept) : kept.isTruthy = true := by
  rcases exists_lists filed with ⟨_, _, _, _, _, _, ⟨⟨_, _, rfl⟩, _⟩, _⟩
  rfl

/-- A question about a record that is kept has an answer by its words. -/
theorem gives_of_filed {kept : Json} (filed : Filed kept) (text : String) :
    Gives (LacksSource kept text) (Answers.byWords kept (.str text)) := by
  rcases exists_lists filed with ⟨_, _, _, _, _, marked, lists, sourced⟩
  exact Answers.gives_byWords lists sourced marked text

/-- An answer passes the rules for answers exactly when no source is absent. -/
theorem body_of_gives {lacking : Prop} {outcome : Outcome Json} (gives : Gives lacking outcome) :
    (¬ lacking → ∃ content files confidence,
      outcome >>= Rule.body Schema.answerFields = .ok (.obj [("answer", .str content),
        ("sources", .texts files), ("confidence", .str confidence)])) ∧
      (lacking → ∃ violations,
        outcome >>= Rule.body Schema.answerFields = .error (.invalid violations)) := by
  rcases gives with ⟨content, sources, confidence, rfl, accepted, absent⟩
  constructor
  · intro present
    have texts : ∀ item ∈ sources, IsText item := fun item member =>
      (accepted item member).resolve_left fun null => present (absent.mp (null ▸ member))
    rcases Rule.exists_texts texts with ⟨files, rfl⟩
    exact ⟨content, files, confidence,
      Rule.body_answer_of_ok content confidence (Rule.itemsFrom_texts files 0)⟩
  · intro lacking
    rcases Rule.itemsFrom_absent accepted (absent.mpr lacking) 0 with ⟨violations, refused⟩
    exact Rule.body_answer_of_error content confidence refused

/-- However the program has been used since its archive was new, and without consent to the
language model: a request for a report gives it, or is refused if it is not there.  A question
about a report that is there fails if the configuration cannot be read, is answered if no source
of the answer is absent, and is invalid otherwise.  A question about a report that is not there is
not refused: it fails as the archive does. -/
theorem question_outcome_after_uses {desk : Desk} {hasDatabases : Bool}
    (fresh : desk.world.archive = .unused hasDatabases) (uses : List (Setting × Use))
    {world : World} (reached : (desk.after uses).world = world) {setting : Setting}
    (withholds : setting.environment.Withholds) (id : Int) (text : String) :
    (∀ found, world.archive.get (.int id) = .ok found →
      (report (.int id)).run.run world = (.ok found, world) ∧
      (∀ fault, Config.load setting.environment = .error fault →
        (question setting (asking id text)).run.run world = (.error fault, world)) ∧
      ∀ config, Config.load setting.environment = .ok config →
        (¬ LacksSource found text → ∃ content files confidence,
          (question setting (asking id text)).run.run world = (.ok (.obj [("answer", .str content),
            ("sources", .texts files), ("confidence", .str confidence)]), world)) ∧
        (LacksSource found text → ∃ violations,
          (question setting (asking id text)).run.run world =
            (.error (.invalid violations), world))) ∧
    ∀ fault, world.archive.get (.int id) = .error fault →
      (report (.int id)).run.run world =
        (.error (.refused 404 ("Report " ++ toString id ++ " not found")), world) ∧
      (question setting (asking id text)).run.run world = (.error fault, world) ∧
      (fault = .badValue ("Report " ++ toString id ++ " not found") ∨
        fault = Archive.Table.tooLarge) := by
  subst reached
  constructor
  · intro found got
    have filed := filed_of_get fresh uses got
    have full := isTruthy_of_filed filed
    have asked := run_question_of_ok got full withholds text
    refine ⟨run_report_of_ok got full, ?_, ?_⟩
    · intro fault failed
      rw [asked, failed]
      rfl
    · intro config loaded
      rw [loaded] at asked
      rcases body_of_gives (gives_of_filed filed text) with ⟨answered, refused⟩
      constructor
      · intro present
        rcases answered present with ⟨content, files, confidence, done⟩
        exact ⟨content, files, confidence, asked.trans (congrArg (·, _) done)⟩
      · intro lacking
        rcases refused lacking with ⟨violations, done⟩
        exact ⟨violations, asked.trans (congrArg (·, _) done)⟩
  · intro fault got
    exact ⟨run_report_of_error got, run_question_of_error got text, Archive.fault_of_get got⟩

/-! ## Reports that are not there -/

/-- A world whose archive has just been opened. -/
def servedWorld : World :=
  ((Desk.mk ⟨repliedWorld, []⟩ []).after
    [(askingSetting "No", .serving)]).world

/-- A report that is not there: the request for it is refused, but the question about it is not. -/
theorem missing_report_not_refused :
    (askingSetting "No").environment.Withholds ∧
      (report (.int 1)).run.run servedWorld =
        (.error (.refused 404 "Report 1 not found"), servedWorld) ∧
      (question (askingSetting "No") (asking 1 "What are the top issues?")).run.run
        servedWorld = (.error (.badValue "Report 1 not found"), servedWorld) :=
  ⟨by decide, rfl, rfl⟩

end WebService

/-! ## A report on a language that is not known -/

namespace CommandLine

/-- A command that asks for a language that is not known. -/
def languageWords : List String := ["analyze", "/", "--languages", "cobol"]

/-- What the command asks for. -/
def languageOptions : AnalysisOptions := ⟨"/", "cobol", none, false, false, false⟩

theorem ofWords_languageWords {files : Files} (rooted : ∃ listing, files.root = .dir listing) :
    Command.ofWords files languageWords = .ok (.analyze languageOptions) := by
  have read : Command.ofWords files languageWords =
      (existingPath files "/" >>= fun _ => .ok (.analyze languageOptions)) := rfl
  rcases rooted with ⟨listing, whole⟩
  have reached : files.statText "/" = .ok (.dir listing) := by
    rw [Files.statText, if_neg (by decide), Files.fromRoot_slash, Files.stat_nil, whole]
  rw [read, existingPath, lookUp, reached]
  rfl

/-- A command leaves the archive that its analysis leaves. -/
theorem archive_of_analyze (setting : Setting) (options : AnalysisOptions) (world : World) :
    (((Command.analyze options).run setting).run.run world).2.archive =
      ((runAnalysis setting options).run.run world).2.archive := by
  refine (@part_of_bind _ _ _ World.archive _ _ ?_ world).trans ?_
  · intro values
    cases values with
    | error fault => exact keeps_throw _ _
    | ok values => exact keeps_pure _ _
  · exact @part_of_bind _ _ _ World.archive (runAnalysis setting options) _
      (fun value => keeps_pure World.archive [value]) world

/-- A world after its archive has been opened. -/
def opened (world : World) : World :=
  { world with archive := world.archive.openAt world.files.workingDirectory }

variable {setting : Setting}

theorem run_runAnalysis {config : Config} (loaded : Config.load setting.environment = .ok config)
    (world : World) :
    (runAnalysis setting languageOptions).run.run world =
      (analyzeNow setting languageOptions "/" (.texts ["cobol"])).run.run (opened world) := by
  have languages : languagesOf languageOptions.languages = ["cobol"] := by decide
  have opening : openArchive.run.run world = (.ok (), opened world) := rfl
  change (ofOutcome (world.files.resolve "/") >>= _).run.run world = _
  rw [Files.resolve_slash, run_bind_of_ok (run_ofOutcome _ world), languages]
  simp only
  rw [run_bind_of_ok opening, loaded, run_bind_of_ok (run_ofOutcome _ _)]
  rfl

/-- An analysis leaves the archive in which its report has been saved. -/
theorem archive_of_analyzeNow {options : AnalysisOptions} {root : String} {languages : Json}
    {world after : World} {analysis : Analysis} {report : Json} {number : Nat} {archive : Archive}
    (done : Analysis.ofRepository setting.analysis world.files root languages options.isIndexed =
      .ok analysis) (generated : (Report.generate setting.hasAdvisor setting.environment setting.now
      analysis.toJson).run.run world = (.ok report, after))
    (saved : after.archive.save setting.now report = .ok (number, archive)) :
    ((analyzeNow setting options root languages).run.run world).2.archive = archive := by
  have started : (get : Action World).run.run world = (.ok world, world) := rfl
  rw [analyzeNow, run_bind_of_ok started, done, run_bind_of_ok (run_ofOutcome _ world),
    run_bind_of_ok generated]
  refine (@part_of_bind _ _ _ World.archive (saveReport setting.now report) _ ?_ after).trans ?_
  · intro number
    apply (keeps_writeReport (lasting_archive setting).writes _ number report).bind
    intro _
    exact keeps_pure _ _
  · rw [run_saveReport_of_ok saved]

/-- The report on a language that is not known is kept, and its one issue has no file. -/
theorem exists_kept {world : World} {config : Config}
    (rooted : ∃ listing, world.files.root = .dir listing) (fresh : world.archive = .unused false)
    (loaded : Config.load setting.environment = .ok config) :
    ∃ report record folder,
      ((run setting languageWords).run.run world).2.archive = ⟨false, [], none, folder⟩ ∧
      folder.Holds [⟨setting.now, report⟩] ∧ report.get? "issues" = some (.arr [record]) ∧
      record.get? "file" = some .null := by
  have listed : RequestedLanguage.list (.texts ["cobol"]) = .ok [.unknown "cobol"] := rfl
  rcases Analysis.ofRepository_eq setting.analysis languageOptions.isIndexed rooted
    (Analysis.rootOf_slash (opened world).files rooted) listed with ⟨analysis, done, issues, _⟩
  rcases Report.lists_generated done setting.hasAdvisor setting.environment setting.now
    (opened world) with ⟨report, given, _, records, shown, describe⟩
  have lasting := lasting_archive setting
  have kept := Report.keeps_generate lasting.spared lasting.forgets setting.hasAdvisor setting.now
    analysis.toJson (opened world)
  cases generated : (Report.generate setting.hasAdvisor setting.environment setting.now
    analysis.toJson).run.run (opened world) with
  | mk outcome after =>
      rw [generated] at given kept
      subst given
      have archive : after.archive = ⟨false, [], none, Archive.Folder.absent.prepare⟩ := by
        rw [show after.archive = (opened world).archive from kept, opened, fresh]
        rfl
      rcases Archive.Folder.Holds.prepare_absent.save setting.now report with
        ⟨folder, written, holds⟩
      have saved : after.archive.save setting.now report =
          .ok (1, ⟨false, [], none, folder⟩) := by
        rw [archive, Archive.save]
        simp only [written]
        rfl
      have findings : analysis.issues.map ScoredFinding.finding =
          [Analysis.languageFinding "cobol"] := by
        rw [issues, Analysis.issuesOf, Analysis.map_finding_withScore]
        rfl
      rw [findings] at describe
      cases describe with
      | cons described rest =>
          cases rest
          have unplaced := described.placeless rfl
          refine ⟨report, _, folder, ?_, holds, shown, unplaced⟩
          calc
            ((run setting languageWords).run.run world).2.archive =
                (((Command.analyze languageOptions).run setting).run.run world).2.archive := by
              have started : (get : Action World).run.run world = (.ok world, world) := rfl
              rw [run, run_bind_of_ok started, ofWords_languageWords rooted,
                run_bind_of_ok (run_ofOutcome _ world)]
            _ = ((runAnalysis setting languageOptions).run.run world).2.archive :=
              archive_of_analyze setting languageOptions world
            _ = ((analyzeNow setting languageOptions "/" (.texts ["cobol"])).run.run
                (opened world)).2.archive := by
              rw [run_runAnalysis loaded]
            _ = ⟨false, [], none, folder⟩ := archive_of_analyzeNow done generated saved

end CommandLine

namespace WebService

open CommandLine (languageWords)

/-- A world with a small repository and an archive that keeps its reports in a folder. -/
def folderWorld : World := { repliedWorld with archive := .unused false }

theorem get_folder (folder : Archive.Folder) (id : Json) :
    (Archive.mk false [] none folder).get id = match folder.find? id.display with
      | some found => .ok found
      | none => .error (Archive.notFound id) := by
  cases looked : folder.find? id.display with
  | none => simp [Archive.get, looked, bind, Except.bind, pure, Except.pure]
  | some found => simp [Archive.get, looked, bind, Except.bind, pure, Except.pure]

/-- After the analysis of an unknown language there is one report.  It is given out, and a question
about it is answered, but not the one for the top issues.  There is no second report. -/
theorem folderWorld_questions :
    ∃ setting world found, setting.environment.Withholds ∧
      ((Desk.mk ⟨folderWorld, []⟩ []).after [(setting, .commanding languageWords)]).world = world ∧
      (report (.int 1)).run.run world = (.ok found, world) ∧
      (∃ content files confidence, (question setting (asking 1 "Is it secure?")).run.run world =
        (.ok (.obj [("answer", .str content), ("sources", .texts files),
          ("confidence", .str confidence)]), world)) ∧
      (∃ violations, (question setting (asking 1 "What are the top issues?")).run.run world =
        (.error (.invalid violations), world)) ∧
      (report (.int 2)).run.run world = (.error (.refused 404 "Report 2 not found"), world) ∧
      (question setting (asking 2 "Is it secure?")).run.run world =
        (.error (.badValue "Report 2 not found"), world) := by
  have withholds : (askingSetting "No").environment.Withholds := by decide
  have loads : ∃ config, Config.load (askingSetting "No").environment =
      .ok config := ⟨_, rfl⟩
  rcases loads with ⟨config, loaded⟩
  have fresh : (Desk.mk ⟨folderWorld, []⟩ []).world.archive = .unused false := rfl
  rcases CommandLine.exists_kept ⟨_, rfl⟩ fresh loaded with
    ⟨found, record, folder, archive, holds, listed, unplaced⟩
  have numeral : folder.find? "1" = some found := by
    have one : "1" = toString (0 + 1) := by decide
    rw [one]
    exact holds.find?_numeral List.getElem?_cons_zero
  have unknown : folder.find? "2" = none := by
    apply holds.find?_eq_none
    intro index inside
    rw [Nat.lt_one_iff.mp inside]
    decide
  generalize reached : ((Desk.mk ⟨folderWorld, []⟩ []).after
    [(askingSetting "No", .commanding languageWords)]).world = world
  have kept : world.archive = ⟨false, [], none, folder⟩ := by
    rw [← reached]
    exact archive
  have first : world.archive.get (.int 1) = .ok found := by
    rw [kept, get_folder, show (Json.int 1).display = "1" from rfl, numeral]
  have second : world.archive.get (.int 2) = .error (Archive.notFound (.int 2)) := by
    rw [kept, get_folder, show (Json.int 2).display = "2" from rfl, unknown]
  have lacking : LacksSource found "What are the top issues?" :=
    ⟨by decide, [record], listed, ⟨record, List.mem_singleton_self record, unplaced⟩,
      Nat.lt_of_le_of_lt List.countP_le_length (show 1 < 3 by decide)⟩
  have placed : ¬ LacksSource found "Is it secure?" := fun lacking =>
    absurd lacking.1 (by decide)
  have outcome := question_outcome_after_uses fresh _ reached withholds
  rcases (outcome 1 "Is it secure?").1 found first with ⟨given, _, answered⟩
  rcases (outcome 1 "What are the top issues?").1 found first with ⟨_, _, listing⟩
  rcases (outcome 2 "Is it secure?").2 _ second with ⟨refused, failed, _⟩
  exact ⟨_, world, found, withholds, reached, given, (answered config loaded).1 placed,
    (listing config loaded).2 lacking, refused, failed⟩

end WebService
end CodeQuality
