import CodeQuality.Proofs.Retrieval.Operations

namespace CodeQuality
namespace Retrieval

/-!
Sessions with several stores.

In a session stores are opened, and each of them can be added to, saved and loaded, in
any order and as often as one likes.  The stores share the world, so what one of them
saves another one may load.  Nothing is closed: a store that is not used any more does
no harm.
-/

/-- The stores that are open, and the world around them. -/
structure Session where
  world : World
  stores : List Store

namespace Session

/-- A step of a session.  Stores are named by their position in the order of opening. -/
inductive Step where
  | opening (path : Option String) (wantsLibrary : Bool)
  | adding (position : Nat) (documents : Json)
  | saving (position : Nat)
  | loading (position : Nat)

/-- The position of the store that a step is about, unless it opens one. -/
def Step.position? : Step → Option Nat
  | .opening _ _ => none
  | .adding position _ => some position
  | .saving position => some position
  | .loading position => some position

/-- Whether a step writes to files. -/
def Step.isSaving : Step → Bool
  | .saving _ => true
  | _ => false

/-- Take a step.  With a store that is not open nothing happens, and a step that fails keeps what
it has changed so far. -/
def perform (environment : Environment) (session : Session) : Step → Outcome Unit × Session
  | .opening path wantsLibrary =>
      match (Store.new environment path wantsLibrary).run.run session.world with
      | (.ok store, world) => (.ok (), ⟨world, session.stores ++ [store]⟩)
      | (.error fault, world) => (.error fault, { session with world })
  | .adding position documents =>
      match session.stores[position]? with
      | none => (.ok (), session)
      | some store =>
          match (store.add environment documents).run.run session.world with
          | (.ok grown, world) => (.ok (), ⟨world, session.stores.set position grown⟩)
          | (.error fault, world) => (.error fault, { session with world })
  | .saving position =>
      match session.stores[position]? with
      | none => (.ok (), session)
      | some store =>
          let (outcome, world) := store.save.run.run session.world
          (outcome, { session with world })
  | .loading position =>
      match session.stores[position]? with
      | none => (.ok (), session)
      | some store =>
          let (outcome, loaded) := store.load session.world.files
          (outcome, { session with stores := session.stores.set position loaded })

/-- The session after some steps. -/
def after (environment : Environment) : Session → List Step → Session
  | session, [] => session
  | session, step :: rest => after environment (session.perform environment step).2 rest

/-- A session in which no store is open yet. -/
def start (world : World) : Session := ⟨world, []⟩

section

variable (environment : Environment) (session : Session)

/-- What every step keeps, a whole session keeps. -/
theorem after_induction (invariant : Session → Prop) (steps : List Step)
    (kept : ∀ session, ∀ step ∈ steps, invariant session →
      invariant (session.perform environment step).2)
    (begins : invariant session) : invariant (session.after environment steps) := by
  induction steps generalizing session with
  | nil => exact begins
  | cons step steps ih =>
      apply ih
      · intro later further member
        exact kept later further (List.mem_cons_of_mem step member)
      · exact kept session step List.mem_cons_self begins

end

/-! ## What a step can do -/

/-- What a step does to a session. -/
inductive Takes (environment : Environment) (session : Session) :
    Step → Outcome Unit → Session → Prop
  | idle {step : Step} {position : Nat} (about : step.position? = some position)
      (absent : session.stores[position]? = none) :
      Takes environment session step (.ok ()) session
  | opened {path : Option String} {wantsLibrary : Bool} {store : Store}
      (ran : (Store.new environment path wantsLibrary).run.run session.world =
        (.ok store, session.world)) :
      Takes environment session (.opening path wantsLibrary) (.ok ())
        { session with stores := session.stores ++ [store] }
  | unopened {path : Option String} {wantsLibrary : Bool} {fault : Fault} :
      Takes environment session (.opening path wantsLibrary) (.error fault) session
  | added {position : Nat} {documents : Json} {store grown : Store} {world : World}
      (there : session.stores[position]? = some store)
      (ran : (store.add environment documents).run.run session.world = (.ok grown, world)) :
      Takes environment session (.adding position documents) (.ok ())
        ⟨world, session.stores.set position grown⟩
  | refused {position : Nat} {documents : Json} {store : Store} {fault : Fault} {world : World}
      (there : session.stores[position]? = some store)
      (ran : (store.add environment documents).run.run session.world = (.error fault, world)) :
      Takes environment session (.adding position documents) (.error fault)
        { session with world }
  | saved {position : Nat} {store : Store} {outcome : Outcome Unit} {files : Files}
      (there : session.stores[position]? = some store)
      (saves : store.Saves session.world.files outcome files) :
      Takes environment session (.saving position) outcome
        { session with world := { session.world with files } }
  | loaded {position : Nat} {store loaded : Store} {outcome : Outcome Unit}
      (there : session.stores[position]? = some store)
      (took : store.load session.world.files = (outcome, loaded)) :
      Takes environment session (.loading position) outcome
        { session with stores := session.stores.set position loaded }

theorem takes_perform (environment : Environment) (session : Session) (step : Step) :
    Takes environment session step (session.perform environment step).1
      (session.perform environment step).2 := by
  cases step with
  | opening path wantsLibrary =>
      have same := Store.keeps_new id environment path wantsLibrary session.world
      rcases ran : (Store.new environment path wantsLibrary).run.run session.world with
        ⟨outcome, world⟩
      rw [ran] at same
      cases same
      cases outcome with
      | error fault =>
          simp only [perform, ran]
          exact .unopened
      | ok store =>
          simp only [perform, ran]
          exact .opened ran
  | adding position documents =>
      rw [perform]
      cases there : session.stores[position]? with
      | none => exact .idle rfl there
      | some store =>
          rcases ran : (store.add environment documents).run.run session.world with
            ⟨outcome, world⟩
          cases outcome with
          | error fault =>
              simp only [ran]
              exact .refused there ran
          | ok grown =>
              simp only [ran]
              exact .added there ran
  | saving position =>
      rw [perform]
      cases there : session.stores[position]? with
      | none => exact .idle rfl there
      | some store =>
          rcases store.of_save session.world with ⟨outcome, files, ran, saves⟩
          simp only [ran]
          exact .saved there saves
  | loading position =>
      rw [perform]
      cases there : session.stores[position]? with
      | none => exact .idle rfl there
      | some store =>
          rcases took : store.load session.world.files with ⟨outcome, loaded⟩
          simp only [took]
          exact .loaded there took

section

variable {environment : Environment} {session : Session} {position : Nat} {store : Store}
  {world : World} (there : session.stores[position]? = some store)

include there

theorem perform_adding_of_ok {documents : Json} {grown : Store}
    (ran : (store.add environment documents).run.run session.world = (.ok grown, world)) :
    session.perform environment (.adding position documents) =
      (.ok (), ⟨world, session.stores.set position grown⟩) := by
  simp only [perform, there, ran]

theorem perform_adding_of_error {documents : Json} {fault : Fault}
    (ran : (store.add environment documents).run.run session.world = (.error fault, world)) :
    session.perform environment (.adding position documents) =
      (.error fault, { session with world }) := by
  simp only [perform, there, ran]

theorem perform_saving_eq {outcome : Outcome Unit}
    (ran : store.save.run.run session.world = (outcome, world)) :
    session.perform environment (.saving position) = (outcome, { session with world }) := by
  simp only [perform, there, ran]

end

/-- Only a saving changes files. -/
theorem Takes.files_eq {environment : Environment} {session later : Session} {step : Step}
    {outcome : Outcome Unit} (takes : Takes environment session step outcome later)
    (quiet : step.isSaving = false) : later.world.files = session.world.files := by
  have spared : ∀ config, LanguageModel.Config.load environment = .ok config →
      Spares (fun world => world.files) config :=
    fun _ _ => spares_of_ignores fun _ _ _ => rfl
  cases takes with
  | idle => rfl
  | opened => rfl
  | unopened => rfl
  | added _ ran => exact (keeps_add spared (fun _ _ _ => rfl) _ _).eq ran
  | refused _ ran => exact (keeps_add spared (fun _ _ _ => rfl) _ _).eq ran
  | saved => cases quiet
  | loaded => rfl

theorem files_after_quiet (environment : Environment) (session : Session) (steps : List Step)
    (quiet : ∀ step ∈ steps, step.isSaving = false) :
    (session.after environment steps).world.files = session.world.files := by
  refine after_induction environment session
    (fun later => later.world.files = session.world.files) steps ?_ rfl
  intro later step member same
  have takes := takes_perform environment later step
  rw [takes.files_eq (quiet step member), same]

end Session

/-! ## An empty directory -/

/-- A world in which there is nothing but an empty directory and, maybe, the search library. -/
def emptyWorld (hasLibrary : Bool) : World :=
  ⟨⟨.dir [], []⟩, ⟨false, [], []⟩, ⟨hasLibrary, [], []⟩, .unused false, []⟩

theorem reserved_emptyWorld (hasLibrary : Bool) (text : String) :
    (emptyWorld hasLibrary).files.Reserved text := by
  intro later _ place _ content
  cases place with
  | nil => exact fun found => by cases found
  | cons name rest => exact fun found => by cases rest <;> cases found

/-- A directory in which there is another one with some files. -/
def directoryWith (listing : List (String × Files.Entry)) : Files := ⟨.dir [("d", .dir listing)], []⟩

theorem ensureDirectories_emptyWorld (hasLibrary : Bool) :
    (emptyWorld hasLibrary).files.ensureDirectories (Files.directoryText "d/x") =
      (.ok (), directoryWith []) := by
  change Files.ensureDirectories ⟨.dir [], []⟩ (Files.directoryText "d/x") = _
  cbv

theorem write_index (content : Files.Content) :
    (directoryWith []).write ((directoryWith []).fromRoot "d/x") "d/x" content =
      .ok (directoryWith [("x", .file content)]) := by
  have place : (directoryWith []).fromRoot "d/x" = ["d", "x"] := by decide
  rw [place]
  cbv

end Retrieval
end CodeQuality
