import CodeQuality.Proofs.Report.Fidelity
import CodeQuality.Proofs.Retrieval.LocalStores
import CodeQuality.Proofs.Retrieval.Passages

namespace CodeQuality

/-!
Explanations when the language model fails.

An explanation may take two requests to the language model: one for a vector, with which
passages are looked for, and one for the text.  Whatever becomes of the second one, there
is an explanation, from the report if not from the model.  The first one stands outside
of this care.  Main result: an issue of a report is explained if and only if the request
for a vector, where one is made, is answered with a text, and the search library, where it
is used, does not fail.
-/

open CodeQuality.Action LanguageModel Retrieval
open Retrieval.Store (IsPassage SearchSucceeds)

/-! ## Requests -/

namespace LanguageModel

/-- What the next reply says. -/
def nextSaid : List Reply → Outcome (Option String)
  | [] => .error (.runtime "no more responses")
  | .text content :: _ => .ok content
  | .failure message :: _ => .error (.runtime message)

/-- A request takes the next reply, whatever it is. -/
theorem run_ask (model : String) (contents : Json) (world : World) :
    ∃ after, (ask model contents).run.run world = (nextSaid world.service.replies, after) ∧
      after.service.replies = world.service.replies.tail ∧
      after.service.isInstalled = world.service.isInstalled := by
  rw [ask, run_bind_of_ok (run_get world)]
  cases replies : world.service.replies with
  | nil => exact ⟨_, rfl, replies, rfl⟩
  | cons reply later =>
      cases reply with
      | text content => exact ⟨_, rfl, rfl, rfl⟩
      | failure message => exact ⟨_, rfl, rfl, rfl⟩

end LanguageModel

namespace Retrieval

/-- Why no vector can be made from the next reply, if none can. -/
def unsaid? : List Reply → Option String
  | [] => some "no more responses"
  | .failure message :: _ => some message
  | .text none :: _ => some "'NoneType' object has no attribute 'encode'"
  | .text (some _) :: _ => none

/-- The vector of what the next reply says. -/
def nextVector (replies : List Reply) : Outcome Vector :=
  (nextSaid replies >>= fun said => ofValue (.ofText? said)).mapError fun fault =>
    .runtime ("Failed to generate Gemini embeddings: " ++ fault.message)

theorem nextVector_of_unsaid {replies : List Reply} {reason : String}
    (unsaid : unsaid? replies = some reason) :
    nextVector replies =
      .error (.runtime ("Failed to generate Gemini embeddings: " ++ reason)) := by
  rcases replies with _ | ⟨⟨_ | said⟩ | message, later⟩
  · cases unsaid
    rfl
  · cases unsaid
    rfl
  · cases unsaid
  · cases unsaid
    rfl

theorem nextVector_of_said {replies : List Reply} (said : unsaid? replies = none) :
    ∃ vector, nextVector replies = .ok vector := by
  rcases replies with _ | ⟨⟨_ | text⟩ | message, later⟩
  · cases said
  · cases said
  · exact ⟨ofText text, rfl⟩
  · cases said

theorem run_askedVector (config : Config) (text : Json) (world : World) :
    ∃ after, (askedVector config text).run.run world =
        (nextVector world.service.replies, after) ∧
      after.service.replies = world.service.replies.tail ∧
      after.service.isInstalled = world.service.isInstalled := by
  rcases run_ask config.embeddingModel (.str (prompt text)) world with
    ⟨after, asked, taken, installed⟩
  have read : (do
      let said ← ask config.embeddingModel (.str (prompt text))
      ofOutcome (ofValue (.ofText? said)) : Action Vector).run.run world =
        (nextSaid world.service.replies >>= fun said => ofValue (.ofText? said), after) := by
    cases said : nextSaid world.service.replies with
    | error fault =>
        rw [said] at asked
        exact run_bind_of_error asked _
    | ok content =>
        rw [said] at asked
        rw [run_bind_of_ok asked, run_ofOutcome]
        rfl
  refine ⟨after, ?_, taken, installed⟩
  rw [askedVector, run_bind_of_ok (run_outcome read), nextVector]
  cases nextSaid world.service.replies >>= fun said => ofValue (.ofText? said) with
  | error fault => rfl
  | ok vector => rfl

section

variable {environment : Environment} {config : Config}
  (loaded : Config.load environment = .ok config) {world : World} (text : String)

include loaded

theorem run_embed_of_silent (silent : asksModel config world = false) :
    (embed environment [.str text]).run.run world = (.ok [ofText text], world) := by
  rw [run_embed loaded, silent]
  rfl

theorem run_embed_of_asking (asks : asksModel config world = true) :
    ∃ after, (embed environment [.str text]).run.run world =
        ((nextVector world.service.replies).map fun vector => [vector], after) ∧
      after.service.replies = world.service.replies.tail ∧
      after.service.isInstalled = world.service.isInstalled := by
  rcases run_askedVector config (.str text) world with ⟨after, ran, taken, installed⟩
  refine ⟨after, ?_, taken, installed⟩
  rw [run_embed loaded, asks, if_pos rfl, List.mapM_cons]
  cases next : nextVector world.service.replies with
  | error fault =>
      rw [next] at ran
      exact run_bind_of_error ran _
  | ok vector =>
      rw [next] at ran
      exact run_bind_of_ok ran _

end

end Retrieval

namespace Advisor

/-! ## The request for a text -/

/-- The record in what the next reply says. -/
def nextRecord (replies : List Reply) : Outcome Json :=
  nextSaid replies >>= fun said => recordIn (.ofText? said)

/-- What the language model says in answer to an advisor, if it can be asked and its reply can be
used. -/
def spoken? (advisor : Advisor) (world : World) (replies : List Reply) : Option Json :=
  if asksModel advisor.config world then (nextRecord replies).toOption else none

section

variable (advisor : Advisor) {world : World}

theorem run_call_of_silent (silent : asksModel advisor.config world = false) (prompt : Json) :
    ∃ fault, (advisor.call prompt).run.run world = (.error fault, world) := by
  rw [asksModel] at silent
  unfold call
  cases enabled : advisor.config.isEnabled with
  | false => exact ⟨_, rfl⟩
  | true =>
      by_cases known : Text.lowerString advisor.config.provider = knownProvider
      · rw [enabled, decide_eq_true known] at silent
        rw [Bool.not_true, if_neg Bool.false_ne_true, if_pos known,
          run_bind_of_ok (run_get world)]
        cases installed : world.service.isInstalled with
        | false => exact ⟨_, rfl⟩
        | true =>
            rw [installed] at silent
            cases silent
      · rw [Bool.not_true, if_neg Bool.false_ne_true, if_neg known]
        exact ⟨_, rfl⟩

theorem run_call_of_asking (asks : asksModel advisor.config world = true) (prompt : Json) :
    ∃ after, (advisor.call prompt).run.run world =
      ((nextSaid world.service.replies).mapError fun fault =>
        .runtime ("Gemini API call failed: " ++ fault.message), after) := by
  rw [asksModel, Bool.and_eq_true, Bool.and_eq_true] at asks
  rcases asks with ⟨⟨enabled, known⟩, installed⟩
  rcases run_ask advisor.config.model prompt world with ⟨after, asked, _⟩
  refine ⟨after, ?_⟩
  unfold call
  rw [enabled, Bool.not_true, if_neg Bool.false_ne_true, if_pos (of_decide_eq_true known),
    run_bind_of_ok (run_get world), installed, Bool.not_true, if_neg Bool.false_ne_true,
    run_bind_of_ok (run_outcome asked)]
  cases nextSaid world.service.replies with
  | error fault => rfl
  | ok said => rfl

/-- A request for a record fails in whatever way, or gives what was said. -/
theorem toOption_callForRecord (prompt : String) :
    ((advisor.callForRecord prompt).run.run world).1.toOption =
      advisor.spoken? world world.service.replies := by
  unfold callForRecord spoken?
  cases asks : asksModel advisor.config world with
  | false =>
      rcases run_call_of_silent advisor asks (.str prompt) with ⟨fault, failed⟩
      rw [run_bind_of_error failed]
      rfl
  | true =>
      rcases run_call_of_asking advisor asks (.str prompt) with ⟨after, ran⟩
      rw [if_pos rfl, nextRecord]
      cases said : nextSaid world.service.replies with
      | error fault =>
          rw [said] at ran
          rw [run_bind_of_error ran]
          rfl
      | ok content =>
          rw [said] at ran
          rw [run_bind_of_ok ran, run_ofOutcome]
          rfl

end

/-! ## Passages for an issue -/

/-- What is looked for among the passages. -/
def questionOn (issue : Json) : String := shown issue "category" ++ ": " ++ shown issue "message"

/-- What a passage adds to a request: its text on lines of its own, and its file. -/
def pieceOf (passage : Store.Passage) : Outcome (String × Json) := do
  let text ← match passage.text with
    | .str text => pure (text ++ "\n")
    | .arr _ => .error (.wrongKind "can only concatenate list (not \"str\") to list")
    | other => .error (Json.unsupported "+" other (.str ""))
  pure (text, ← passage.about.member "file" (.str "?"))

theorem exists_piece {passage : Store.Passage} (whole : passage.IsWhole) :
    ∃ piece, pieceOf passage = .ok piece := by
  rcases whole with ⟨text, about, told, known⟩
  rw [pieceOf, told, known]
  exact ⟨_, rfl⟩

section

variable {advisor : Advisor} {environment : Environment} {issue : Json} {store : Store}
  (own : advisor.store = some store) {world after : World}

include own

theorem context_eq : advisor.context environment issue =
    store.retrieve environment (.str (questionOn issue)) (.int 3) >>= fun passages =>
      passages.mapM (fun passage => ofOutcome (pieceOf passage)) >>= fun pieces =>
        pure (String.join (pieces.map Prod.fst), pieces.map Prod.snd) := by
  unfold context
  rw [own]
  rfl

theorem run_context_of_ok {passages : List Store.Passage}
    (retrieved : (store.retrieve environment (.str (questionOn issue)) (.int 3)).run.run world =
      (.ok passages, after)) (whole : ∀ passage ∈ passages, passage.IsWhole) :
    ∃ text sources, (advisor.context environment issue).run.run world =
      (.ok (text, sources), after) := by
  have each : ∀ passage ∈ passages, ∃ piece, pieceOf passage = .ok piece ∧ True := by
    intro passage member
    rcases exists_piece (whole passage member) with ⟨piece, made⟩
    exact ⟨piece, made, trivial⟩
  rcases Outcome.exists_mapM_eq_ok each with ⟨pieces, made, _⟩
  have read := run_mapM_ofOutcome pieceOf passages after
  rw [made] at read
  rw [context_eq own, run_bind_of_ok retrieved, run_bind_of_ok read]
  exact ⟨_, _, rfl⟩

theorem run_context_of_error {fault : Fault}
    (failed : (store.retrieve environment (.str (questionOn issue)) (.int 3)).run.run world =
      (.error fault, after)) :
    (advisor.context environment issue).run.run world = (.error fault, after) := by
  rw [context_eq own]
  exact run_bind_of_error failed _

end

/-! ## Explanations -/

/-- The explanation with what the language model said, or without it. -/
def worded (id issue : Json) (sources : List Json) : Option Json → Json
  | some said => explanation id
      ((said.get? "explanation").getD ((issue.get? "message").getD .null))
      ((said.get? "fix_plan").getD (.arr [])) sources "high"
  | none => plainExplanation id issue sources

section

variable {advisor : Advisor} {environment : Environment} {report id issue : Json}
  (found : findIssue? report id = .ok (some issue)) (real : issue.isTruthy = true)
  {world between : World}

include found real

theorem run_explain_of_error {fault : Fault}
    (failed : (advisor.context environment issue).run.run world = (.error fault, between)) :
    (advisor.explain environment report id).run.run world = (.error fault, between) := by
  unfold explain
  rw [found, run_bind_of_ok (run_ofOutcome _ world)]
  simp only [real, Bool.not_true, Bool.false_eq_true, if_false]
  exact run_bind_of_error failed _

/-- Whatever becomes of the request for a text, there is an explanation. -/
theorem run_explain_of_ok {text : String} {sources : List Json}
    (gathered : (advisor.context environment issue).run.run world =
      (.ok (text, sources), between)) :
    ((advisor.explain environment report id).run.run world).1 =
      .ok (worded id issue sources (advisor.spoken? between between.service.replies)) := by
  unfold explain
  rw [found, run_bind_of_ok (run_ofOutcome _ world)]
  simp only [real, Bool.not_true, Bool.false_eq_true, if_false]
  rw [run_bind_of_ok gathered]
  simp only
  have said := @toOption_callForRecord advisor between (explanationPrompt issue text)
  cases enabled : advisor.config.isEnabled with
  | false =>
      have silent : asksModel advisor.config between = false := by
        rw [asksModel, enabled, Bool.false_and, Bool.false_and]
      rw [spoken?, silent]
      rfl
  | true =>
      rw [if_pos rfl]
      cases ran : (advisor.callForRecord (explanationPrompt issue text)).run.run between with
      | mk outcome after =>
          rw [ran] at said
          rw [run_bind_of_ok (run_outcome ran), ← said]
          cases outcome with
          | error fault => rfl
          | ok spoken => rfl

end

/-- A record that explains the issue with an identifier. -/
structure Explains (id : String) (answer : Json) : Prop where
  issue : answer.get? "issue_id" = some (.str id)
  explanation : (answer.get? "explanation").isSome
  plan : (answer.get? "fix_plan").isSome

theorem explains_worded (id : String) (issue : Json) (sources : List Json) (said : Option Json) :
    Explains id (worded (.str id) issue sources said) := by
  cases said with
  | none => exact ⟨rfl, rfl, rfl⟩
  | some spoken => exact ⟨rfl, rfl, rfl⟩

/-! ## Finding an issue -/

section

variable {issues : List Json} {id : String}
  (records : ∀ record ∈ issues, ∃ members, record = .obj members)

include records

theorem search_of_mem {issue : Json} (known : issue ∈ issues)
    (named : issue.get? "id" = some (.str id)) :
    ∃ first ∈ issues, findIssue?.search (.str id) issues = .ok (some first) ∧
      first.get? "id" = some (.str id) := by
  induction issues with
  | nil => cases known
  | cons record rest ih =>
      rcases records record List.mem_cons_self with ⟨members, rfl⟩
      rw [findIssue?.search, Json.member]
      simp only [bind, Except.bind]
      by_cases same : Json.same ((Json.lookup? "id" members).getD .null) (.str id) = true
      · refine ⟨.obj members, List.mem_cons_self, by rw [if_pos same]; rfl, ?_⟩
        have exact := (Json.isExact_str id _).mp same
        cases told : Json.lookup? "id" members with
        | none =>
            rw [told] at exact
            cases exact
        | some own =>
            rw [told] at exact
            exact told.trans (congrArg some exact)
      · have below : issue ∈ rest := by
          refine (List.mem_cons.mp known).resolve_left ?_
          rintro rfl
          rw [show Json.lookup? "id" members = _ from named] at same
          exact same ((Json.isExact_str id _).mpr rfl)
        rw [if_neg same]
        rcases ih (fun other member => records other (List.mem_cons_of_mem _ member)) below with
          ⟨first, member, found, same⟩
        exact ⟨first, List.mem_cons_of_mem _ member, found, same⟩

/-- The first issue with an identifier is found, and there is something in it. -/
theorem findIssue?_of_mem {members : List (String × Json)}
    (listed : Json.lookup? "issues" members = some (.arr issues)) {issue : Json}
    (known : issue ∈ issues) (named : issue.get? "id" = some (.str id)) :
    ∃ first ∈ issues, findIssue? (.obj members) (.str id) = .ok (some first) ∧
      first.get? "id" = some (.str id) ∧ first.isTruthy = true := by
  rcases search_of_mem records known named with ⟨first, member, found, same⟩
  refine ⟨first, member, ?_, same, ?_⟩
  · rw [findIssue?, Json.member, listed]
    exact found
  · rcases records first member with ⟨_ | ⟨pair, rest⟩, rfl⟩
    · cases same
    · rfl

end

/-! ## Advisors -/

/-- How an advisor comes about: it is made for a configuration, and passages may be given to its
store. -/
inductive Prepared (environment : Environment) : Advisor → Prop where
  | made {config : Config} {advisor : Advisor} {world after : World}
      (ran : (new environment config).run.run world = (.ok advisor, after)) :
      Prepared environment advisor
  | taught {advisor : Advisor} {store grown : Store} {documents : List Json} {world after : World}
      (before : Prepared environment advisor) (own : advisor.store = some store)
      (passages : ∀ document ∈ documents, IsPassage document)
      (ran : (store.add environment (.arr documents)).run.run world = (.ok grown, after)) :
      Prepared environment { advisor with store := some grown }

/-- A store is opened without documents. -/
theorem of_run_new {environment : Environment} {path : Option String} {wantsLibrary : Bool}
    {world after : World} {store : Store}
    (ran : (Store.new environment path wantsLibrary).run.run world = (.ok store, after)) :
    ∃ config, Config.load environment = .ok config ∧ store.documents = [] ∧
      store.embeddings = [] := by
  cases loaded : Config.load environment with
  | error fault =>
      rw [Store.run_new_of_error loaded] at ran
      cases ran
  | ok config =>
      refine ⟨config, rfl, ?_⟩
      cases uses : wantsLibrary && world.library.isInstalled && config.isEnabled with
      | false =>
          rw [Store.run_new_plain loaded uses] at ran
          cases ran
          exact ⟨rfl, rfl⟩
      | true =>
          rw [Store.run_new_indexed loaded uses] at ran
          rcases Outcome.exists_of_map (Prod.mk.inj ran).1 with ⟨index, _, rfl⟩
          exact ⟨rfl, rfl⟩

/-- The store of an advisor holds passages, and its environment can be read. -/
theorem Prepared.furnished {environment : Environment} {advisor : Advisor}
    (prepared : Prepared environment advisor) {store : Store} (own : advisor.store = some store) :
    (∃ config, Config.load environment = .ok config) ∧ store.IsFurnished := by
  induction prepared generalizing store with
  | @made config advisor world after ran =>
      unfold new at ran
      split at ran
      · rcases exists_of_run_bind ran with ⟨opened, between, opening, ran⟩
        cases ran
        cases own
        rcases of_run_new opening with ⟨config, loaded, documents, embeddings⟩
        exact ⟨⟨config, loaded⟩, by rw [documents]; exact List.forall_mem_nil _,
          by rw [embeddings]; exact List.forall_mem_nil _⟩
      · cases ran
        cases own
  | @taught advisor former grown documents world after before had passages ran ih =>
      cases own
      rcases ih had with ⟨readable, furnished⟩
      refine ⟨readable, ?_⟩
      rcases Store.of_add ran with ⟨added, vectors, listed, _, rfl, _⟩
      cases listed
      refine ⟨?_, ?_⟩
      · intro document member
        rcases List.mem_append.mp member with old | new
        · exact furnished.documents document old
        · exact passages document new
      · intro embedding member
        rcases List.mem_append.mp member with old | new
        · exact furnished.embeddings embedding old
        · rcases List.mem_map.mp new with ⟨vector, _, same⟩
          exact ⟨vector, same.symm⟩

/-- Whether the language model is asked for the vector of a question about an issue. -/
def asksForVector (environment : Environment) (advisor : Advisor) (world : World) : Bool :=
  advisor.store.isSome && (Config.load environment).toOption.any (asksModel · world)

/-- Why there is no vector for a question about an issue, if there is none. -/
def refusal? (environment : Environment) (advisor : Advisor) (world : World) : Option String :=
  if asksForVector environment advisor world then unsaid? world.service.replies else none

/-- The replies that are left for the request for a text. -/
def repliesLeft (environment : Environment) (advisor : Advisor) (world : World) : List Reply :=
  if asksForVector environment advisor world then world.service.replies.tail
  else world.service.replies

section

variable {environment : Environment} {advisor : Advisor} {store : Store}
  (own : advisor.store = some store) {config : Config}
  (loaded : Config.load environment = .ok config) {world : World} (text : String)

include own loaded

theorem asksForVector_eq : asksForVector environment advisor world = asksModel config world := by
  rw [asksForVector, own, loaded]
  rfl

theorem run_embed_of_refusal {reason : String}
    (refused : refusal? environment advisor world = some reason) :
    ∃ after, (embed environment [.str text]).run.run world =
      (.error (.runtime ("Failed to generate Gemini embeddings: " ++ reason)), after) := by
  rw [refusal?, asksForVector_eq own loaded] at refused
  split at refused
  next asks =>
    rcases run_embed_of_asking loaded text asks with ⟨after, ran, _⟩
    rw [nextVector_of_unsaid refused] at ran
    exact ⟨after, ran⟩
  next => cases refused

theorem run_embed_of_accepted (accepted : refusal? environment advisor world = none) :
    ∃ vectors after, (embed environment [.str text]).run.run world = (.ok vectors, after) ∧
      after.service.isInstalled = world.service.isInstalled ∧
      after.service.replies = repliesLeft environment advisor world := by
  rw [repliesLeft, asksForVector_eq own loaded]
  rw [refusal?, asksForVector_eq own loaded] at accepted
  cases asks : asksModel config world with
  | false => exact ⟨_, world, run_embed_of_silent loaded text asks, rfl, rfl⟩
  | true =>
      rw [asks, if_pos rfl] at accepted
      rcases run_embed_of_asking loaded text asks with ⟨after, ran, taken, installed⟩
      rcases nextVector_of_said accepted with ⟨vector, next⟩
      rw [next] at ran
      exact ⟨[vector], after, ran, installed, taken⟩

end

/-- Whether the search library does not fail an advisor that uses it. -/
def IsServed (advisor : Advisor) (library : Library) : Prop :=
  ∀ store ∈ advisor.store, store.SearchSucceeds library

section

variable {environment : Environment} {advisor : Advisor} (prepared : Prepared environment advisor)
  (issue : Json) {world : World}

include prepared

theorem run_context_of_refusal {reason : String}
    (refused : refusal? environment advisor world = some reason) :
    ∃ after, (advisor.context environment issue).run.run world =
      (.error (.runtime ("Failed to generate Gemini embeddings: " ++ reason)), after) := by
  cases own : advisor.store with
  | none =>
      rw [refusal?, asksForVector, own] at refused
      cases refused
  | some store =>
      rcases (prepared.furnished own).1 with ⟨config, loaded⟩
      rcases run_embed_of_refusal own loaded (questionOn issue) refused with ⟨after, failed⟩
      exact ⟨after, run_context_of_error own (Store.run_retrieve_of_unembedded failed)⟩

theorem run_context_of_accepted (accepted : refusal? environment advisor world = none)
    (served : advisor.IsServed world.library) :
    ∃ text sources after, (advisor.context environment issue).run.run world =
        (.ok (text, sources), after) ∧
      after.service.isInstalled = world.service.isInstalled ∧
      after.service.replies = repliesLeft environment advisor world := by
  cases own : advisor.store with
  | none =>
      refine ⟨"", [], world, ?_, rfl, ?_⟩
      · rw [context, own]
        rfl
      · rw [repliesLeft, asksForVector, own]
        rfl
  | some store =>
      rcases prepared.furnished own with ⟨⟨config, loaded⟩, furnished⟩
      rcases run_embed_of_accepted own loaded (questionOn issue) accepted with
        ⟨vectors, between, embedded, installed, left⟩
      rcases @Store.run_retrieve_of_ok store furnished environment _ 3 _ _ _ embedded
        (served store own) with ⟨passages, after, retrieved, whole, same⟩
      rcases run_context_of_ok own retrieved whole with ⟨text, sources, gathered⟩
      exact ⟨text, sources, after, gathered, same ▸ installed, same ▸ left⟩

theorem run_context_of_failure (accepted : refusal? environment advisor world = none)
    (unserved : ¬ advisor.IsServed world.library) :
    ∃ fault after, (advisor.context environment issue).run.run world = (.error fault, after) := by
  cases own : advisor.store with
  | none =>
      rw [IsServed, own] at unserved
      exact absurd (fun store member => by cases member) unserved
  | some store =>
      have failing : ¬ store.SearchSucceeds world.library := by
        intro succeeds
        refine unserved fun other member => ?_
        cases member.symm.trans own
        exact succeeds
      rcases prepared.furnished own with ⟨⟨config, loaded⟩, furnished⟩
      rcases run_embed_of_accepted own loaded (questionOn issue) accepted with
        ⟨vectors, between, embedded, _, _⟩
      rcases @Store.run_retrieve_of_error store furnished environment _ 3 _ _ _ embedded failing
        with ⟨fault, after, failed⟩
      exact ⟨fault, after, run_context_of_error own failed⟩

section

variable {report id : Json} (found : findIssue? report id = .ok (some issue))
  (real : issue.isTruthy = true)

include found real

theorem explain_of_refusal {reason : String}
    (refused : refusal? environment advisor world = some reason) :
    ((advisor.explain environment report id).run.run world).1 =
      .error (.runtime ("Failed to generate Gemini embeddings: " ++ reason)) := by
  rcases run_context_of_refusal prepared issue refused with ⟨after, failed⟩
  exact congrArg Prod.fst (run_explain_of_error found real failed)

/-- What the explanation of an issue is, once the passages for it are there. -/
theorem explain_of_accepted (accepted : refusal? environment advisor world = none)
    (served : advisor.IsServed world.library) :
    ∃ sources, ((advisor.explain environment report id).run.run world).1 =
      .ok (worded id issue sources
        (advisor.spoken? world (repliesLeft environment advisor world))) := by
  rcases run_context_of_accepted prepared issue accepted served with
    ⟨text, sources, between, gathered, installed, left⟩
  refine ⟨sources, (run_explain_of_ok found real gathered).trans ?_⟩
  rw [left, spoken?, spoken?, asksModel, asksModel, installed]

theorem explain_of_unserved (accepted : refusal? environment advisor world = none)
    (unserved : ¬ advisor.IsServed world.library) :
    ∃ fault, ((advisor.explain environment report id).run.run world).1 = .error fault := by
  rcases run_context_of_failure prepared issue accepted unserved with ⟨fault, after, failed⟩
  exact ⟨fault, congrArg Prod.fst (run_explain_of_error found real failed)⟩

end

/-- An issue of a report is explained, whatever the language model replies, if and only if it does
not refuse to give a vector and the search library does not fail.  Without a vector there is a
fault that tells the reason.  The explanation is the model's if the model can be asked and its reply
to the request for a text can be used, and the report's otherwise. -/
theorem issue_is_explained_iff {members : List (String × Json)} {issues : List Json}
    (listed : Json.lookup? "issues" members = some (.arr issues))
    (records : ∀ record ∈ issues, ∃ own, record = .obj own) (known : issue ∈ issues)
    {id : String} (named : issue.get? "id" = some (.str id)) :
    let outcome := ((advisor.explain environment (.obj members) (.str id)).run.run world).1
    ((∃ answer, outcome = .ok answer ∧ Explains id answer) ↔
      refusal? environment advisor world = none ∧ advisor.IsServed world.library) ∧
    (∀ reason, refusal? environment advisor world = some reason →
      outcome = .error (.runtime ("Failed to generate Gemini embeddings: " ++ reason))) ∧
    ∀ answer, outcome = .ok answer → ∃ first ∈ issues, first.get? "id" = some (.str id) ∧
      ∃ sources, answer = worded (.str id) first sources
        (advisor.spoken? world (repliesLeft environment advisor world)) := by
  rcases findIssue?_of_mem records listed known named with ⟨first, member, found, same, real⟩
  intro outcome
  cases refused : refusal? environment advisor world with
  | some reason =>
      have fault : outcome = _ := explain_of_refusal prepared first found real refused
      simp [fault]
  | none =>
      by_cases served : advisor.IsServed world.library
      · rcases explain_of_accepted prepared first found real refused served with ⟨sources, given⟩
        have answered : outcome = _ := given
        rw [answered]
        refine ⟨⟨fun _ => ⟨rfl, served⟩, fun _ => ⟨_, rfl, explains_worded _ _ _ _⟩⟩, ?_, ?_⟩
        · intro reason impossible
          cases impossible
        · rintro answer ⟨⟩
          exact ⟨first, member, same, sources, rfl⟩
      · rcases explain_of_unserved prepared first found real refused served with ⟨fault, failed⟩
        have faulty : outcome = .error fault := failed
        simp [faulty, served]

end

/-! ## One issue and one advisor -/

/-- An issue of a report. -/
def loneIssue : Json := .obj [("id", .str "PY-1"), ("message", .str "Look here"),
  ("file", .str "app.py"), ("lineno", .int 1)]

/-- An environment in which the language model is turned on and can be asked. -/
def geminiOn : Environment := [("USE_LLM", "true"), ("LLM_PROVIDER", "gemini")]

/-- A world with the service behind the language model and without the search library. -/
def replyingWorld (replies : List Reply) : World :=
  ⟨⟨.dir [], []⟩, ⟨true, replies, []⟩, ⟨false, [], []⟩, .unused true, []⟩

theorem exists_geminiConfig : ∃ config, Config.load geminiOn = .ok config ∧
    config.isEnabled = true ∧ Text.lowerString config.provider = knownProvider := by
  have shown : (Config.load geminiOn).toOption.map
      (fun config => (config.isEnabled, Text.lowerString config.provider)) =
        some (true, knownProvider) := by decide +kernel
  cases loaded : Config.load geminiOn with
  | error fault =>
      rw [loaded] at shown
      cases shown
  | ok config =>
      rw [loaded] at shown
      rcases Prod.mk.inj (Option.some.inj shown) with ⟨enabled, known⟩
      exact ⟨config, rfl, enabled, known⟩

/-- An advisor whose store has nothing in it. -/
def unread (config : Config) : Advisor :=
  ⟨config, some ⟨Store.pathOf (some config.indexPath), none, [], []⟩⟩

theorem isServed_unread (config : Config) (library : Library) :
    (unread config).IsServed library := by
  rintro store ⟨⟩ uses
  cases uses

/-- An advisor that asks the language model for vectors. -/
theorem exists_prepared : ∃ config, Prepared geminiOn (unread config) ∧
    ∀ replies, asksForVector geminiOn (unread config) (replyingWorld replies) = true := by
  rcases exists_geminiConfig with ⟨config, loaded, enabled, known⟩
  have opened := @Store.run_new_plain geminiOn config loaded (some config.indexPath) true
    (replyingWorld []) rfl
  have made : (new geminiOn config).run.run (replyingWorld []) =
      (.ok (unread config), replyingWorld []) := by
    rw [new, enabled, if_pos rfl, run_bind_of_ok opened]
    rfl
  refine ⟨config, .made made, fun replies => ?_⟩
  rw [asksForVector_eq rfl loaded, asksModel, enabled, decide_eq_true known]
  rfl

/-- The model gives a vector and then fails: the issue is explained from the report. -/
theorem loneIssue_explained :
    ∃ advisor answer, Prepared geminiOn advisor ∧
      ((advisor.explain geminiOn (.obj [("issues", .arr [loneIssue])]) (.str "PY-1")).run.run
        (replyingWorld [.text (some "a text"), .failure "overloaded"])).1 = .ok answer ∧
      Explains "PY-1" answer := by
  rcases exists_prepared with ⟨config, prepared, asks⟩
  have explained := @issue_is_explained_iff geminiOn (unread config) prepared loneIssue
    (replyingWorld [.text (some "a text"), .failure "overloaded"]) [("issues", .arr [loneIssue])]
    [loneIssue] rfl (fun record member => ⟨_, List.mem_singleton.mp member⟩) List.mem_cons_self
    "PY-1" rfl
  have accepted : refusal? geminiOn (unread config)
      (replyingWorld [.text (some "a text"), .failure "overloaded"]) = none := by
    rw [refusal?, asks]
    rfl
  rcases explained.1.mpr ⟨accepted, isServed_unread config _⟩ with ⟨answer, given, explains⟩
  exact ⟨unread config, answer, prepared, given, explains⟩

/-- The model fails at once: the issue is not explained, though it is in the report. -/
theorem loneIssue_unexplained :
    ∃ advisor, Prepared geminiOn advisor ∧
      ((advisor.explain geminiOn (.obj [("issues", .arr [loneIssue])]) (.str "PY-1")).run.run
        (replyingWorld [.failure "quota"])).1 =
        .error (.runtime "Failed to generate Gemini embeddings: quota") := by
  rcases exists_prepared with ⟨config, prepared, asks⟩
  have refused : refusal? geminiOn (unread config) (replyingWorld [.failure "quota"]) =
      some "quota" := by
    rw [refusal?, asks]
    rfl
  exact ⟨unread config, prepared, explain_of_refusal prepared loneIssue rfl rfl refused⟩

end Advisor
end CodeQuality
