import CodeQuality.Proofs.LanguageModel.Asking
import CodeQuality.Proofs.Retrieval.Session
import CodeQuality.CommandLine
import CodeQuality.WebService

namespace CodeQuality

/-!
Using the program.

The program is used in many ways: by functions for texts, stores and reports, by
advisors, by jobs, by requests to the web service and by commands.  A series of uses
shares one world, the stores that have been opened and the advisors that have been
made, and every use may have a setting of its own.

Few uses touch the archive.  They open it, save the record of an analysis or of a
report, or let a job do so.  What these three preserve, every use preserves.
-/

open CodeQuality.Action
open LanguageModel (Config)
open Retrieval (Spares Store)

/-- A record that is kept: that of an analysis, or the report on it. -/
inductive Filed : Json → Prop
  | analysis {request : Analysis.Request} {files : Files} {path : String} {languages : Json}
      {isIndexed : Bool} {analysis : Analysis}
      (done : Analysis.ofRepository request files path languages isIndexed = .ok analysis) :
      Filed analysis.toJson
  | report {request : Analysis.Request} {files : Files} {path : String} {languages : Json}
      {isIndexed : Bool} {analysis : Analysis} {hasAdvisor : Bool} {environment : Environment}
      {now : Moment} {world after : World} {report : Json}
      (done : Analysis.ofRepository request files path languages isIndexed = .ok analysis)
      (generated : (Report.generate hasAdvisor environment now analysis.toJson).run.run world =
        (.ok report, after)) :
      Filed report

/-- Something that holds of a part of the world and goes on holding when the archive is opened,
when a record is saved, and when a job runs.  The part has nothing to do with files and the
search library, nor with the language model if the setting lets it be asked. -/
structure Lasting {γ : Type} (setting : Setting) (part : World → γ) (holds : γ → Prop) : Prop where
  spared : ∀ config, Config.load setting.environment = .ok config → Spares part config
  forgets : ∀ world library, part { world with library } = part world
  writes : ∀ world files, part { world with files } = part world
  opening : Preserves (fun world => holds (part world)) openArchive
  saving : ∀ report, Filed report →
    Preserves (fun world => holds (part world)) (saveReport setting.now report)
  working : ∀ name parameters,
    Preserves (fun world => holds (part world)) (runJob setting.analysis name parameters)

section

variable {γ : Type} {setting : Setting} {part : World → γ} {holds : γ → Prop}

/-! ## The web service -/

namespace WebService

theorem keeps_report (part : World → γ) (id : Json) : Keeps part (report id) := by
  unfold report
  apply Keeps.bind
  · apply Keeps.outcome
    apply (keeps_get part).bind
    intro world
    exact keeps_ofOutcome part _
  · intro found
    cases found with
    | error fault => exact keeps_throw part _
    | ok record =>
        simp only
        split
        · exact keeps_pure part record
        · exact keeps_throw part _

theorem keeps_question (lasting : Lasting setting part holds) (body : Json) :
    Keeps part (question setting body) := by
  unfold question
  apply (keeps_ofOutcome part _).bind
  intro request
  apply Keeps.bind
  · apply (keeps_get part).bind
    intro world
    exact keeps_ofOutcome part _
  · intro found
    split
    · apply (Answers.keeps_ask lasting.spared lasting.forgets _ _ _).bind
      intro answer
      exact keeps_ofOutcome part _
    · exact keeps_throw part _

theorem preserves_analyzeNow (lasting : Lasting setting part holds) (parameters : Job.Parameters) :
    Preserves (fun world => holds (part world)) (analyzeNow setting parameters) := by
  unfold analyzeNow
  apply ((keeps_get part).preserves holds).bind
  intro world
  apply ((keeps_ofOutcome part _).preserves holds).bind_of_run
  intro before analysis after ran
  rw [run_ofOutcome] at ran
  apply (lasting.saving _ (.analysis (Prod.mk.inj ran).1)).bind
  intro number
  exact (keeps_pure part _).preserves holds

theorem preserves_analyze (lasting : Lasting setting part holds) (body : Json) :
    Preserves (fun world => holds (part world)) (analyze setting body) := by
  unfold analyze
  apply ((keeps_ofOutcome part _).preserves holds).bind
  intro request
  simp only
  split
  · apply ((keeps_get part).preserves holds).bind
    intro world
    apply (lasting.working _ _).bind
    intro _
    exact (keeps_pure part _).preserves holds
  · apply (preserves_analyzeNow lasting _).outcome.bind
    intro done
    cases done with
    | error fault => exact (keeps_throw part _).preserves holds
    | ok record => exact (keeps_pure part record).preserves holds

end WebService

/-! ## Commands -/

namespace CommandLine

theorem keeps_writeReport (writes : ∀ world files, part { world with files } = part world)
    (output : String) (number : Nat) (report : Json) :
    Keeps part (writeReport output number report) := by
  have writing : ∀ path shown content, Keeps part (writeFile path shown content) := by
    intro path shown content world
    cases written : world.files.write path shown content with
    | error fault => rw [run_writeFile_of_error written]
    | ok files =>
        rw [run_writeFile_of_ok written]
        exact writes world files
  unfold writeReport
  apply (keeps_get part).bind
  intro world
  apply (keeps_ofOutcome part _).bind
  intro directory
  apply Keeps.bind
  · intro before
    rw [run_changeFiles]
    exact writes before _
  · intro _
    apply (writing _ _ _).bind
    intro _
    apply (keeps_ofOutcome part _).bind
    intro text
    exact writing _ _ _

theorem preserves_analyzeNow (lasting : Lasting setting part holds) (options : AnalysisOptions)
    (root : String) (languages : Json) :
    Preserves (fun world => holds (part world)) (analyzeNow setting options root languages) := by
  unfold analyzeNow
  apply ((keeps_get part).preserves holds).bind
  intro world
  apply ((keeps_ofOutcome part _).preserves holds).bind_of_run
  intro before analysis after done
  rw [run_ofOutcome] at done
  apply Preserves.bind_of_run
  · exact (Report.keeps_generate lasting.spared lasting.forgets _ _ _).preserves holds
  · intro before report after generated
    apply (lasting.saving _ (.report (Prod.mk.inj done).1 generated)).bind
    intro number
    apply ((keeps_writeReport lasting.writes _ _ _).preserves holds).bind
    intro _
    exact (keeps_pure part _).preserves holds

theorem preserves_analyzeLater (lasting : Lasting setting part holds) (options : AnalysisOptions)
    (root : String) (languages : Json) :
    Preserves (fun world => holds (part world)) (analyzeLater setting options root languages) := by
  unfold analyzeLater
  apply ((keeps_get part).preserves holds).bind
  intro world
  apply (lasting.working _ _).bind
  intro _
  exact (keeps_pure part _).preserves holds

theorem preserves_runAnalysis (lasting : Lasting setting part holds) (options : AnalysisOptions) :
    Preserves (fun world => holds (part world)) (runAnalysis setting options) := by
  unfold runAnalysis
  apply ((keeps_get part).preserves holds).bind
  intro world
  apply ((keeps_ofOutcome part _).preserves holds).bind
  intro root
  split
  · exact (keeps_throw part _).preserves holds
  · apply lasting.opening.bind
    intro _
    apply ((keeps_ofOutcome part _).preserves holds).bind
    intro config
    simp only
    split
    · exact preserves_analyzeLater lasting _ _ _
    · exact preserves_analyzeNow lasting _ _ _

theorem keeps_answerQuestion (lasting : Lasting setting part holds) (number : Int)
    (question : String) : Keeps part (answerQuestion setting number question) := by
  unfold answerQuestion
  apply Keeps.bind
  · apply (keeps_get part).bind
    intro world
    exact keeps_ofOutcome part _
  · intro report
    split
    · exact Answers.keeps_ask lasting.spared lasting.forgets _ _ _
    · exact keeps_throw part _

theorem preserves_run (lasting : Lasting setting part holds) (words : List String) :
    Preserves (fun world => holds (part world)) (run setting words) := by
  unfold run Command.run
  apply ((keeps_get part).preserves holds).bind
  intro world
  apply ((keeps_ofOutcome part _).preserves holds).bind
  intro command
  apply Preserves.bind
  · apply Preserves.outcome
    cases command with
    | help => exact (keeps_pure part _).preserves holds
    | analyze options =>
        apply (preserves_runAnalysis lasting options).bind
        intro record
        exact (keeps_pure part _).preserves holds
    | ask number question =>
        apply ((keeps_answerQuestion lasting number question).preserves holds).bind
        intro answer
        exact (keeps_pure part _).preserves holds
  · intro printed
    cases printed with
    | error fault => exact (keeps_throw part _).preserves holds
    | ok values => exact (keeps_pure part values).preserves holds

end CommandLine

end

/-! ## Series of uses -/

/-- What is at hand while the program is used: the open stores with the world around them, and
the advisors that have been made. -/
structure Desk where
  session : Retrieval.Session
  advisors : List Advisor

/-- A use of the program.  Stores and advisors are named by their position in the order of
making.  In between, files may be changed by others. -/
inductive Use where
  | changing (files : Files)
  | embedding (texts : List Json)
  | storing (step : Retrieval.Session.Step)
  | querying (position : Nat) (question count : Json)
  | retrieving (position : Nat) (question count : Json)
  | indexing (position : Nat) (path : String)
  | analyzing (path : String) (languages : Json) (isIndexed : Bool)
  | reporting (analysis : Json)
  | asking (report question : Json)
  | hiring
  | calling (position : Nat) (prompt : Json)
  | explaining (position : Nat) (report id : Json)
  | patching (position : Nat) (report id : Json)
  | answering (position : Nat) (report question : Json)
  | working (name : String) (parameters : Job.Parameters)
  | serving
  | requesting (body : Json)
  | fetching (id : Json)
  | questioning (body : Json)
  | commanding (words : List String)

namespace Desk

/-- The world of a desk. -/
def world (desk : Desk) : World := desk.session.world

/-- A desk with another world. -/
def within (desk : Desk) (world : World) : Desk :=
  { desk with session := { desk.session with world } }

/-- Do something of which only the world keeps a trace. -/
def doing {α : Type} (desk : Desk) (action : Action α) : Desk :=
  desk.within (action.run.run desk.world).2

/-- Do something with the store or the advisor at a position. -/
def doingWith {α β : Type} (desk : Desk) (tools : List α) (position : Nat)
    (action : α → Action β) : Desk :=
  match tools[position]? with
  | none => desk
  | some tool => desk.doing (action tool)

/-- Use the program.  With a store or an advisor that is not there nothing happens, and a use that
fails keeps what it has changed so far. -/
def perform (desk : Desk) (setting : Setting) : Use → Desk
  | .changing files => desk.within { desk.world with files }
  | .embedding texts => desk.doing (Retrieval.embed setting.environment texts)
  | .storing step => { desk with session := (desk.session.perform setting.environment step).2 }
  | .querying position question count =>
      desk.doingWith desk.session.stores position fun store =>
        store.query setting.environment question count
  | .retrieving position question count =>
      desk.doingWith desk.session.stores position fun store =>
        store.retrieve setting.environment question count
  | .indexing position path =>
      match desk.session.stores[position]? with
      | none => desk
      | some store =>
          match (store.indexRepository setting.environment path).run.run desk.world with
          | (.error _, world) => desk.within world
          | (.ok (_, grown), world) =>
              { desk with session := ⟨world, desk.session.stores.set position grown⟩ }
  | .analyzing path languages isIndexed => desk.doing do
      ofOutcome (Analysis.ofRepository setting.analysis (← get).files path languages isIndexed)
  | .reporting analysis =>
      desk.doing (Report.generate setting.hasAdvisor setting.environment setting.now analysis)
  | .asking report question =>
      desk.doing (Answers.ask setting.hasAdvisor setting.environment report question)
  | .hiring =>
      match (Advisor.fromEnvironment setting.environment).run.run desk.world with
      | (.error _, world) => desk.within world
      | (.ok advisor, world) => { desk.within world with advisors := desk.advisors ++ [advisor] }
  | .calling position prompt => desk.doingWith desk.advisors position fun advisor =>
      advisor.call prompt
  | .explaining position report id => desk.doingWith desk.advisors position fun advisor =>
      advisor.explain setting.environment report id
  | .patching position report id => desk.doingWith desk.advisors position fun advisor =>
      advisor.suggestPatch report id
  | .answering position report question => desk.doingWith desk.advisors position fun advisor =>
      advisor.answer report question
  | .working name parameters => desk.doing (runJob setting.analysis name parameters)
  | .serving => desk.doing openArchive
  | .requesting body => desk.doing (WebService.analyze setting body)
  | .fetching id => desk.doing (WebService.report id)
  | .questioning body => desk.doing (WebService.question setting body)
  | .commanding words => desk.doing (CommandLine.run setting words)

/-- The desk after some uses, each in its own setting. -/
def after (desk : Desk) (uses : List (Setting × Use)) : Desk :=
  uses.foldl (fun desk use => desk.perform use.1 use.2) desk

end Desk

section

variable {γ : Type} {part : World → γ} {holds : γ → Prop}

/-- A desk where something holds, and whose advisors will not touch the part that it is about. -/
structure Desk.Upholds (part : World → γ) (holds : γ → Prop) (desk : Desk) : Prop where
  holds : holds (part desk.world)
  advisors : ∀ advisor ∈ desk.advisors, Spares part advisor.config

namespace Desk.Upholds

variable {desk : Desk} {setting : Setting}

theorem doing {α : Type} (upholds : desk.Upholds part holds) {action : Action α}
    (preserves : Preserves (fun world => holds (part world)) action) :
    (desk.doing action).Upholds part holds :=
  ⟨preserves desk.world upholds.holds, upholds.advisors⟩

theorem doingWith {α β : Type} (upholds : desk.Upholds part holds) {tools : List α}
    {action : α → Action β} (keeps : ∀ tool ∈ tools, Keeps part (action tool)) (position : Nat) :
    (desk.doingWith tools position action).Upholds part holds := by
  unfold Desk.doingWith
  cases there : tools[position]? with
  | none => exact upholds
  | some tool =>
      exact upholds.doing ((keeps tool (List.mem_of_getElem? there)).preserves holds)

theorem storing (upholds : desk.Upholds part holds) (lasting : Lasting setting part holds)
    (step : Retrieval.Session.Step) :
    (desk.perform setting (.storing step)).Upholds part holds := by
  refine ⟨?_, upholds.advisors⟩
  have before : holds (part desk.session.world) := upholds.holds
  have adding : ∀ (store : Store) documents,
      Keeps part (store.add setting.environment documents) := fun store documents =>
    Retrieval.keeps_add lasting.spared (fun world library _ => lasting.forgets world library)
      store documents
  change holds (part (desk.session.perform setting.environment step).2.world)
  have takes := Retrieval.Session.takes_perform setting.environment desk.session step
  generalize (desk.session.perform setting.environment step).1 = outcome at takes
  generalize (desk.session.perform setting.environment step).2 = later at takes ⊢
  cases takes with
  | idle => exact before
  | opened => exact before
  | unopened => exact before
  | added _ ran =>
      rw [(adding _ _).eq ran]
      exact before
  | refused _ ran =>
      change holds (part _)
      rw [(adding _ _).eq ran]
      exact before
  | saved =>
      rw [lasting.writes]
      exact before
  | loaded => exact before

theorem indexing (upholds : desk.Upholds part holds) (lasting : Lasting setting part holds)
    (position : Nat) (path : String) :
    (desk.perform setting (.indexing position path)).Upholds part holds := by
  rw [Desk.perform]
  cases there : desk.session.stores[position]? with
  | none => exact upholds
  | some store =>
      have kept := Store.keeps_indexRepository lasting.spared lasting.forgets lasting.writes
        store path desk.world
      have before := upholds.holds
      rw [← kept] at before
      simp only
      split
      next ran =>
        rw [ran] at before
        exact ⟨before, upholds.advisors⟩
      next ran =>
        rw [ran] at before
        exact ⟨before, upholds.advisors⟩

theorem hiring (upholds : desk.Upholds part holds) (lasting : Lasting setting part holds) :
    (desk.perform setting .hiring).Upholds part holds := by
  have kept := Advisor.keeps_fromEnvironment part setting.environment desk.world
  have before := upholds.holds
  rw [← kept] at before
  rw [Desk.perform]
  split
  next ran =>
    rw [ran] at before
    exact ⟨before, upholds.advisors⟩
  next advisor world ran =>
    rw [ran] at before
    refine ⟨before, ?_⟩
    intro other member
    rcases List.mem_append.mp member with old | new
    · exact upholds.advisors other old
    · cases List.mem_singleton.mp new
      exact lasting.spared _ (Advisor.load_of_fromEnvironment ran)

/-- What lasts is upheld by every use. -/
theorem perform (upholds : desk.Upholds part holds) (lasting : Lasting setting part holds)
    (use : Use) : (desk.perform setting use).Upholds part holds := by
  have advised := upholds.advisors
  cases use with
  | changing files =>
      refine ⟨?_, advised⟩
      change holds (part { desk.world with files })
      rw [lasting.writes]
      exact upholds.holds
  | embedding texts =>
      exact upholds.doing ((Retrieval.keeps_embed lasting.spared texts).preserves holds)
  | storing step => exact upholds.storing lasting step
  | querying position question count =>
      apply upholds.doingWith
      intro store _
      exact store.keeps_query lasting.spared lasting.forgets question count
  | retrieving position question count =>
      apply upholds.doingWith
      intro store _
      exact store.keeps_retrieve lasting.spared lasting.forgets question count
  | indexing position path => exact upholds.indexing lasting position path
  | analyzing path languages isIndexed =>
      apply upholds.doing
      apply ((keeps_get part).preserves holds).bind
      intro world
      exact (keeps_ofOutcome part _).preserves holds
  | reporting analysis =>
      exact upholds.doing
        ((Report.keeps_generate lasting.spared lasting.forgets _ _ _).preserves holds)
  | asking report question =>
      exact upholds.doing
        ((Answers.keeps_ask lasting.spared lasting.forgets _ _ _).preserves holds)
  | hiring => exact upholds.hiring lasting
  | calling position prompt =>
      apply upholds.doingWith
      intro advisor member
      exact Advisor.keeps_call (advised advisor member) prompt
  | explaining position report id =>
      apply upholds.doingWith
      intro advisor member
      exact Advisor.keeps_explain lasting.spared lasting.forgets (advised advisor member) report id
  | patching position report id =>
      apply upholds.doingWith
      intro advisor member
      exact Advisor.keeps_suggestPatch (advised advisor member) report id
  | answering position report question =>
      apply upholds.doingWith
      intro advisor member
      exact Advisor.keeps_answer (advised advisor member) report question
  | working name parameters => exact upholds.doing (lasting.working name parameters)
  | serving => exact upholds.doing lasting.opening
  | requesting body => exact upholds.doing (WebService.preserves_analyze lasting body)
  | fetching id => exact upholds.doing ((WebService.keeps_report part id).preserves holds)
  | questioning body =>
      exact upholds.doing ((WebService.keeps_question lasting body).preserves holds)
  | commanding words => exact upholds.doing (CommandLine.preserves_run lasting words)

/-- What lasts in every setting of a series of uses is upheld by the series. -/
theorem after (upholds : desk.Upholds part holds) {uses : List (Setting × Use)}
    (lasting : ∀ setting use, (setting, use) ∈ uses → Lasting setting part holds) :
    (desk.after uses).Upholds part holds := by
  induction uses generalizing desk with
  | nil => exact upholds
  | cons first rest ih =>
      apply ih (upholds.perform (lasting first.1 first.2 List.mem_cons_self) first.2)
      intro setting use member
      exact lasting setting use (List.mem_cons_of_mem first member)

end Desk.Upholds

end

end CodeQuality
