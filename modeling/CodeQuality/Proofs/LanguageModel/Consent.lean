import CodeQuality.Proofs.Analysis.Aggregation
import CodeQuality.Proofs.Usage

namespace CodeQuality

/-!
The language model is asked with consent only.

One variable of the environment gives the consent.  Without it nothing that the program
does reaches the service behind the model: not a single request is sent and no reply is
taken, whatever is asked for, whatever is stored, and in whatever order.
-/

open CodeQuality.Action
open LanguageModel (Config)

/-- An environment that does not let the language model be asked. -/
def Environment.Withholds (environment : Environment) : Prop :=
  ∀ value ∈ environment.get? "USE_LLM", Text.lowerString value ∉ ["1", "true", "yes"]

instance (environment : Environment) : Decidable environment.Withholds :=
  inferInstanceAs (Decidable (∀ value ∈ environment.get? "USE_LLM",
    Text.lowerString value ∉ ["1", "true", "yes"]))

namespace LanguageModel

theorem isEnabled_of_load {environment : Environment} {config : Config}
    (loaded : Config.load environment = .ok config) :
    config.isEnabled = Config.enablingValues.contains
      (Text.lowerString ((environment.get? "USE_LLM").getD "false")) := by
  unfold Config.load at loaded
  rcases Outcome.exists_of_bind loaded with ⟨maxChunkSize, _, loaded⟩
  rcases Outcome.exists_of_bind loaded with ⟨chunkOverlap, _, loaded⟩
  cases loaded
  rfl

/-- Without consent, whatever configuration is read turns the model off. -/
theorem isEnabled_of_withholds {environment : Environment} (withholds : environment.Withholds)
    {config : Config} (loaded : Config.load environment = .ok config) :
    config.isEnabled = false := by
  rw [isEnabled_of_load loaded]
  cases given : environment.get? "USE_LLM" with
  | none => rfl
  | some value =>
      have other := withholds value given
      rw [Option.getD_some, ← Bool.not_eq_true, List.contains_iff_mem]
      exact other

/-- Without consent the service behind the model stays as it is. -/
theorem lasting_service {setting : Setting} (withholds : setting.environment.Withholds)
    (service : Service) : Lasting setting World.service (· = service) where
  spared := fun _ loaded => Retrieval.spares_of_off _ (isEnabled_of_withholds withholds loaded)
  forgets := fun _ _ => rfl
  writes := fun _ _ => rfl
  opening := fun _ same => same
  saving := by
    intro report _ world same
    cases saved : world.archive.save setting.now report with
    | error fault =>
        rw [run_saveReport_of_error saved]
        exact same
    | ok result =>
        rw [run_saveReport_of_ok saved]
        exact same
  working := fun _ _ _ same => same

/-- However the program is used, in settings that do not let the language model be asked, it is
not asked: the service has received nothing and given nothing. -/
theorem service_untouched_without_consent (session : Retrieval.Session)
    (uses : List (Setting × Use))
    (withheld : ∀ setting use, (setting, use) ∈ uses → setting.environment.Withholds) :
    ((Desk.mk session []).after uses).world.service = session.world.service := by
  have begins : (Desk.mk session []).Upholds World.service (· = session.world.service) :=
    ⟨rfl, fun _ member => by cases member⟩
  have ends := begins.after fun setting use member =>
    lasting_service (withheld setting use member) session.world.service
  exact ends.holds

/-! ## Uses that ask for the model -/

/-- A setting with an advisor in which one variable may turn the model on. -/
def askingSetting (value : String) : Setting :=
  ⟨{ Analysis.plainRequest with
    environment := [("USE_LLM", value), ("LLM_PROVIDER", "gemini")] }, true, Job.nameOf⟩

/-- A world with a small repository, in which the service is there and would reply. -/
def repliedWorld : World :=
  ⟨Analysis.twoLanguageFiles, ⟨true, [.text (some "a reply")], []⟩, ⟨true, [], []⟩,
    .unused true, []⟩

/-- Uses that would ask the model if they could, and that say so. -/
def eagerUses : List Use :=
  [.embedding [.str "some text"], .storing (.opening none true),
    .storing (.adding 0 (.arr [.obj [("text", .str "a note")]])),
    .querying 0 (.str "which?") (.int 3), .hiring, .calling 0 (.str "hello"),
    .commanding ["analyze", "/", "--use-llm"],
    .requesting (.obj [("path", .str "/"), ("use_llm", .bool true), ("index_for_rag", .bool true)]),
    .questioning (.obj [("report_id", .int 1), ("question", .str "what is JS-SEC-1?")])]

/-- Without consent all of them leave the service alone; with it already the first one asks. -/
theorem service_untouched_by_eagerUses :
    (askingSetting "No").environment.Withholds ∧
      ((Desk.mk ⟨repliedWorld, []⟩ []).after
        (eagerUses.map fun use => (askingSetting "No", use))).world.service =
          repliedWorld.service ∧
      ¬ (askingSetting "Yes").environment.Withholds ∧
      ((Desk.mk ⟨repliedWorld, []⟩ []).after ((eagerUses.take 1).map fun use =>
        (askingSetting "Yes", use))).world.service.requests.length = 1 := by
  have withholds : (askingSetting "No").environment.Withholds := by decide
  refine ⟨withholds, ?_, by decide, by rfl⟩
  apply service_untouched_without_consent
  intro setting use member
  rcases List.mem_map.mp member with ⟨_, _, same⟩
  cases same
  exact withholds

end LanguageModel
end CodeQuality
