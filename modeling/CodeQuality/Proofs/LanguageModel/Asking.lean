import CodeQuality.Proofs.Retrieval.Operations
import CodeQuality.Answers
import CodeQuality.Report
import CodeQuality.Retrieval.Indexing

namespace CodeQuality

/-!
What asking the language model can touch.

Vectors, explanations, patches, answers and reports may come from the language model.
Each of these operations reads the configuration for itself, and asks only if it says
that the model is on.  So a part of the world stays as it is during an operation when
it has nothing to do with the model, and also when the model is turned off.
-/

open LanguageModel (Config)
open Retrieval (Spares Store)

namespace Action

variable {α β γ : Type} {part : World → γ}

theorem Keeps.foldlM {step : α → β → Action α} (each : ∀ value item, Keeps part (step value item))
    (value : α) (items : List β) : Keeps part (items.foldlM step value) := by
  induction items generalizing value with
  | nil => exact keeps_pure part value
  | cons item items ih =>
      rw [List.foldlM_cons]
      apply (each value item).bind
      intro next
      exact ih next

theorem keeps_search (forgets : ∀ world library, part { world with library } = part world)
    (vectors : List Retrieval.Vector) (count : Json) : Keeps part (search vectors count) := by
  intro world
  have searched : ∃ library, ((search vectors count).run.run world).2 = { world with library } := by
    rw [search, run_bind_of_ok (run_get world)]
    cases world.library.searches with
    | nil => exact ⟨_, rfl⟩
    | cons found rest => exact ⟨_, rfl⟩
  rcases searched with ⟨library, after⟩
  rw [after]
  exact forgets world library

end Action

open CodeQuality.Action

variable {γ : Type} {part : World → γ} {environment : Environment}
  (spared : ∀ config, Config.load environment = .ok config → Spares part config)
  (forgets : ∀ world library, part { world with library } = part world)

/-! ## Stores -/

namespace Retrieval.Store

include spared forgets

theorem keeps_query (store : Store) (question count : Json) :
    Keeps part (store.query environment question count) := by
  unfold query
  apply (keeps_embed spared [question]).bind
  intro vectors
  cases store.index with
  | none => exact keeps_ofOutcome part _
  | some index =>
      simp only
      split
      · apply (keeps_search forgets _ _).bind
        intro found
        exact keeps_ofOutcome part _
      · exact keeps_ofOutcome part _

theorem keeps_retrieve (store : Store) (question count : Json) :
    Keeps part (store.retrieve environment question count) := by
  unfold retrieve
  apply (keeps_query spared forgets store question count).bind
  intro hits
  exact .mapM (fun hit => keeps_ofOutcome part _) hits

omit spared forgets in
theorem keeps_save (writes : ∀ world files, part { world with files } = part world)
    (store : Store) : Keeps part store.save := by
  intro world
  rcases of_save store world with ⟨outcome, files, ran, saves⟩
  rw [ran]
  exact writes world files

theorem keeps_indexRepository (writes : ∀ world files, part { world with files } = part world)
    (store : Store) (path : String) : Keeps part (store.indexRepository environment path) := by
  unfold indexRepository
  apply (keeps_get part).bind
  intro world
  apply (keeps_ofOutcome part _).bind
  intro corpus
  apply (keeps_add spared (fun world library _ => forgets world library) store _).bind
  intro grown
  apply (keeps_save writes grown).bind
  intro _
  exact keeps_pure part _

end Retrieval.Store

/-! ## Advisors -/

namespace Advisor

theorem keeps_new (part : World → γ) (environment : Environment) (config : Config) :
    Keeps part (new environment config) := by
  unfold new
  split
  · apply (Store.keeps_new part _ _ _).bind
    intro store
    exact keeps_pure part _
  · exact keeps_pure part _

theorem keeps_fromEnvironment (part : World → γ) (environment : Environment) :
    Keeps part (fromEnvironment environment) := by
  unfold fromEnvironment
  apply (keeps_ofOutcome part _).bind
  intro config
  exact keeps_new part environment config

/-- An advisor has the configuration that it was made with. -/
theorem config_of_new {config : Config} {advisor : Advisor} {world after : World}
    (ran : (new environment config).run.run world = (.ok advisor, after)) :
    advisor.config = config := by
  unfold new at ran
  split at ran
  · rcases exists_of_run_bind ran with ⟨store, between, opened, ran⟩
    cases ran
    rfl
  · cases ran
    rfl

theorem load_of_fromEnvironment {advisor : Advisor} {world after : World}
    (ran : (fromEnvironment environment).run.run world = (.ok advisor, after)) :
    Config.load environment = .ok advisor.config := by
  unfold fromEnvironment at ran
  rcases exists_of_run_bind ran with ⟨config, between, loaded, ran⟩
  rw [run_ofOutcome] at loaded
  rw [config_of_new ran]
  exact (Prod.mk.inj loaded).1

section

variable {advisor : Advisor} (own : Spares part advisor.config)

include own

theorem keeps_call (prompt : Json) : Keeps part (advisor.call prompt) := by
  unfold call
  split
  · exact keeps_throw part _
  next isOn =>
    split
    · apply (keeps_get part).bind
      intro world
      split
      · exact keeps_throw part _
      · apply (own (by simpa using isOn) _ _).outcome.bind
        intro said
        cases said with
        | error fault => exact keeps_throw part _
        | ok text => exact keeps_pure part text
    · exact keeps_throw part _

theorem keeps_callForRecord (prompt : String) : Keeps part (advisor.callForRecord prompt) := by
  unfold callForRecord
  apply (keeps_call own _).bind
  intro said
  exact keeps_ofOutcome part _

theorem keeps_suggestPatch (report id : Json) : Keeps part (advisor.suggestPatch report id) := by
  unfold suggestPatch
  apply (keeps_ofOutcome part _).bind
  intro found
  cases found with
  | none => exact keeps_pure part _
  | some issue =>
      simp only
      split
      · exact keeps_pure part _
      · split
        · apply (keeps_call own _).outcome.bind
          intro said
          cases said with
          | error fault => exact keeps_pure part _
          | ok text => exact keeps_pure part _
        · exact keeps_pure part _

theorem keeps_answer (report question : Json) : Keeps part (advisor.answer report question) := by
  unfold answer
  apply (keeps_ofOutcome part _).bind
  intro issues
  apply (Keeps.mapM (fun issue => keeps_ofOutcome part _) issues).bind
  intro pieces
  simp only
  split
  · apply (keeps_callForRecord own _).outcome.bind
    intro said
    cases said with
    | error fault => exact keeps_pure part _
    | ok record => exact keeps_pure part _
  · exact keeps_pure part _

end

section

include spared forgets

theorem keeps_context (advisor : Advisor) (issue : Json) :
    Keeps part (advisor.context environment issue) := by
  unfold context
  cases advisor.store with
  | none => exact keeps_pure part _
  | some store =>
      apply (Store.keeps_retrieve spared forgets store _ _).bind
      intro passages
      apply (Keeps.mapM (fun passage => keeps_ofOutcome part _) passages).bind
      intro pieces
      exact keeps_pure part _

theorem keeps_explain {advisor : Advisor} (own : Spares part advisor.config) (report id : Json) :
    Keeps part (advisor.explain environment report id) := by
  unfold explain
  apply (keeps_ofOutcome part _).bind
  intro found
  cases found with
  | none => exact keeps_pure part _
  | some issue =>
      simp only
      split
      · exact keeps_pure part _
      · apply (keeps_context spared forgets advisor issue).bind
        rintro ⟨contextText, sources⟩
        simp only
        split
        · apply (keeps_callForRecord own _).outcome.bind
          intro said
          cases said with
          | error fault => exact keeps_pure part _
          | ok record => exact keeps_pure part _
        · exact keeps_pure part _

end

end Advisor

/-! ## Reports and answers -/

section

include spared forgets

namespace Report

theorem keeps_explainAt {advisor : Advisor} (own : Spares part advisor.config) (analysis : Json)
    (issues : List Issue) (position : Nat) :
    Keeps part (explainAt advisor environment analysis issues position) := by
  unfold explainAt
  cases issues[position]? with
  | none => exact keeps_pure part _
  | some issue =>
      apply Keeps.bind
      · unfold explanationOf
        apply (Advisor.keeps_explain spared forgets own analysis issue.id).outcome.bind
        intro said
        cases said with
        | error fault => exact keeps_pure part _
        | ok text => exact keeps_pure part _
      · intro text
        exact keeps_pure part _

theorem keeps_explained (hasAdvisor : Bool) (analysis : Json) (issues : List Issue) :
    Keeps part (explained hasAdvisor environment analysis issues) := by
  unfold explained
  split
  · apply (Advisor.keeps_fromEnvironment part environment).outcome.bind_of_run
    intro world made after ran
    cases made with
    | error fault => exact keeps_pure part issues
    | ok advisor =>
        have own := spared _ (Advisor.load_of_fromEnvironment (run_of_outcome ran))
        exact .foldlM (keeps_explainAt spared forgets own analysis) issues _
  · exact keeps_pure part issues

theorem keeps_generate (hasAdvisor : Bool) (now : Moment) (analysis : Json) :
    Keeps part (generate hasAdvisor environment now analysis) := by
  unfold generate
  apply (keeps_ofOutcome part _).bind
  rintro ⟨issues, files, score⟩
  apply (keeps_explained spared forgets hasAdvisor analysis issues).bind
  intro explainedIssues
  exact keeps_ofOutcome part _

end Report

namespace Answers

theorem keeps_byAdvisor {config : Config} (own : Spares part config) (report question : Json) :
    Keeps part (byAdvisor environment config report question) := by
  unfold byAdvisor
  apply (Advisor.keeps_new part environment config).bind_of_run
  intro world advisor after ran
  have advised : Spares part advisor.config := by
    rw [Advisor.config_of_new ran]
    exact own
  cases question with
  | str text =>
      simp only
      split
      · apply (Advisor.keeps_explain spared forgets advised report _).bind
        intro said
        exact keeps_pure part _
      · apply (Advisor.keeps_answer advised report _).bind
        intro said
        exact keeps_pure part _
  | _ => exact keeps_throw part _

theorem keeps_ask (hasAdvisor : Bool) (report question : Json) :
    Keeps part (ask hasAdvisor environment report question) := by
  unfold ask
  apply Keeps.bind_ofOutcome
  intro config loaded
  split
  · apply (keeps_byAdvisor spared forgets (spared config loaded) report question).outcome.bind
    intro said
    cases said with
    | error fault => exact keeps_ofOutcome part _
    | ok record => exact keeps_pure part record
  · exact keeps_ofOutcome part _

end Answers

end

end CodeQuality
