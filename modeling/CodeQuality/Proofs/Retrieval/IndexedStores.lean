import CodeQuality.Proofs.Retrieval.Session
import Mathlib.Data.List.Induction

namespace CodeQuality

open Retrieval.Store Retrieval.Session Files List

namespace Retrieval

/-!
Stores that use the search library.

The library keeps the vectors in an index and answers with positions in it; the store
keeps the documents and takes such a position as one of theirs.  Index and documents go
to two files.  Loading reads both of them.  Opening a store reads the index alone, and
that is the one step after which positions can mean other documents, or none.

What an index holds is not visible to the program.  It is followed here beside the
session, from the calls that add vectors; an index that is read is taken to hold what
it held when it was written.
-/

/-! ## The vectors in the indexes -/

/-- What the search library was told to add between two worlds. -/
def addedVectors (before after : World) : List Vector :=
  (after.library.calls.drop before.library.calls.length).flatMap fun
    | .add vectors => vectors
    | .search _ _ => []

/-- A session with the vectors that the indexes of its stores hold, and those that the index at
their path held when it was written. -/
structure Tracked where
  session : Session
  held : List (List Vector)
  written : List Vector

namespace Tracked

/-- Nothing is open, and nothing has been written. -/
def start (world : World) : Tracked := ⟨.start world, [], []⟩

/-- Whether loading a store replaces its index. -/
def rereads (files : Files) (path : String) : Bool :=
  files.holdsText path && (readIndex files path).isOk

/-- The vectors that a store starts with. -/
def startingVectors (files : Files) (path : String) (written : List Vector) : List Vector :=
  match startingIndex files path with
  | .ok index => if index.total = 0 then [] else written
  | .error _ => []

/-- The vectors after a step that ended with an outcome and led to a session. -/
def follow (tracked : Tracked) (step : Step) (outcome : Outcome Unit) (later : Session) : Tracked :=
  let files := tracked.session.world.files
  match step, outcome with
  | .opening path _, .ok () =>
      { tracked with
        session := later
        held := tracked.held ++ [startingVectors files (pathOf path) tracked.written] }
  | .adding position _, .ok () =>
      { tracked with
        session := later
        held := tracked.held.set position
          ((tracked.held[position]?).getD [] ++ addedVectors tracked.session.world later.world) }
  | .saving position, .ok () =>
      { tracked with
        session := later
        written := (tracked.held[position]?).getD tracked.written }
  | .loading position, _ =>
      { tracked with
        session := later
        held := match tracked.session.stores[position]? with
          | some store =>
              if rereads files store.indexPath then tracked.held.set position tracked.written
              else tracked.held
          | none => tracked.held }
  | _, .error _ => { tracked with session := later }

/-- Take a step. -/
def perform (environment : Environment) (tracked : Tracked) (step : Step) : Tracked :=
  tracked.follow step (tracked.session.perform environment step).1
    (tracked.session.perform environment step).2

/-- The session after some steps, with its vectors. -/
def after (environment : Environment) : Tracked → List Step → Tracked
  | tracked, [] => tracked
  | tracked, step :: rest => after environment (tracked.perform environment step) rest

theorem after_concat (environment : Environment) (tracked : Tracked) (steps : List Step)
    (step : Step) :
    tracked.after environment (steps ++ [step]) =
      (tracked.after environment steps).perform environment step := by
  induction steps generalizing tracked with
  | nil => rfl
  | cons first rest ih => exact ih _

theorem session_follow (tracked : Tracked) (step : Step) (outcome : Outcome Unit)
    (later : Session) : (tracked.follow step outcome later).session = later := by
  cases step <;> cases outcome <;> rfl

/-- Following the vectors does not change what happens. -/
theorem session_after (environment : Environment) (tracked : Tracked) (steps : List Step) :
    (tracked.after environment steps).session = tracked.session.after environment steps := by
  induction steps generalizing tracked with
  | nil => rfl
  | cons step rest ih =>
      rw [after, Session.after, ih, perform, session_follow]

end Tracked

/-- The index of a store has as many vectors as there are documents, and a position in it means
the document whose vector is there. -/
structure InStep (environment : Environment) (store : Store) (vectors : List Vector) : Prop where
  index : store.index = some ⟨dimension, store.documents.length⟩
  counted : store.documents.length = vectors.length
  answers : ∀ (position : Nat) vector, vectors[position]? = some vector →
    ∃ document, itemAt store.documents position = .ok document ∧
      Embeds environment document vector

/-- All stores of a session are in step with their indexes. -/
def Tracked.AllInStep (environment : Environment) (tracked : Tracked) : Prop :=
  Forall₂ (InStep environment) tracked.session.stores tracked.held

/-! ## Lists side by side -/

section

variable {α β : Type} {relation : α → β → Prop} {left : List α} {right : List β}

theorem forall₂_set (matched : Forall₂ relation left right) {a : α} {b : β} (fits : relation a b)
    (position : Nat) : Forall₂ relation (left.set position a) (right.set position b) := by
  induction matched generalizing position with
  | nil => exact .nil
  | cons first rest ih =>
      cases position with
      | zero => exact .cons fits rest
      | succ position => exact .cons first (ih position)

theorem forall₂_getElem? (matched : Forall₂ relation left right) {position : Nat} {a : α}
    (there : left[position]? = some a) : ∃ b, right[position]? = some b ∧ relation a b := by
  induction matched generalizing position with
  | nil => cases there
  | cons first rest ih =>
      cases position with
      | zero =>
          cases there
          exact ⟨_, rfl, first⟩
      | succ position => exact ih there

theorem forall₂_getElem?_eq_none (matched : Forall₂ relation left right) {position : Nat}
    (absent : left[position]? = none) : right[position]? = none := by
  rw [getElem?_eq_none_iff] at absent ⊢
  rw [← matched.length_eq]
  exact absent

end

theorem itemAt_natCast (items : List Json) (position : Nat) :
    itemAt items position =
      match items[position]? with
      | some item => .ok item
      | none => .error .outOfRange := by
  have front : ¬ ((position : Int) < 0) := by omega
  cases found : items[position]? with
  | none => simp only [itemAt, if_neg front, Int.toNat_natCast, found]
  | some item => simp only [itemAt, if_neg front, Int.toNat_natCast, found]

/-- In step are documents and vectors that belong together one by one. -/
theorem inStep_iff {environment : Environment} {store : Store} {vectors : List Vector} :
    InStep environment store vectors ↔
      store.index = some ⟨dimension, store.documents.length⟩ ∧
        Forall₂ (Embeds environment) store.documents vectors := by
  constructor
  · intro step
    refine ⟨step.index, forall₂_iff_get.mpr ⟨step.counted, ?_⟩⟩
    intro position inside within
    rcases step.answers position _ (getElem?_eq_getElem within) with
      ⟨document, found, embeds⟩
    rw [itemAt_natCast, getElem?_eq_getElem inside] at found
    cases found
    exact embeds
  · rintro ⟨index, matched⟩
    refine ⟨index, matched.length_eq, ?_⟩
    intro position vector there
    rcases List.getElem?_eq_some_iff.mp there with ⟨within, rfl⟩
    have inside : position < store.documents.length := matched.length_eq ▸ within
    refine ⟨store.documents[position], ?_, matched.get inside within⟩
    rw [itemAt_natCast, getElem?_eq_getElem inside]

theorem InStep.vectors {environment : Environment} {store : Store} {vectors : List Vector}
    (step : InStep environment store vectors) :
    Forall₂ (Embeds environment) store.documents vectors := (inStep_iff.mp step).2

/-! ## What a store finds at its path -/

/-- What savings have left at a path and beside it: nothing at all, or an index and its documents.
When both paths lead to one place, the documents are there alone. -/
inductive Left (environment : Environment) (path : String) (first files : Files)
    (written : List Vector) : Prop
  | nothing (since : WrittenSince (fun _ => False) first files)
  | index (documents : List Json)
      (vectors : Forall₂ (Embeds environment) documents written)
      (index : files.statText path =
        .ok (.file (.document (Index.toJson ⟨dimension, documents.length⟩))))
      (beside : files.statText (path ++ ".meta.json") = .ok (.file (.document (.arr documents))))
  | documents (documents : List Json)
      (vectors : Forall₂ (Embeds environment) documents written)
      (alone : files.statText path = .ok (.file (.document (.arr documents))))

section

variable {environment : Environment} {path : String} {first files : Files} {store : Store}
  {index : Index} {vectors written : List Vector} {documents : List Json}

theorem readIndex_of_statText {value : Json}
    (found : files.statText path = .ok (.file (.document value))) :
    readIndex files path =
      match Index.ofJson? value with
      | some index => .ok index
      | none => .error .malformedJson := by
  have opened := open?_of_stat (statText_eq_file.mp found).2.2 path
  rw [readIndex, opened]
  rfl

/-- Documents with texts are not taken for an index. -/
theorem ofJson?_documents (matched : Forall₂ (Embeds environment) documents vectors) :
    Index.ofJson? (.arr documents) = none := by
  cases matched with
  | nil => rfl
  | cons first rest =>
      rename_i document vector documents vectors
      rcases first with ⟨text, read, _⟩
      cases document with
      | obj members => rfl
      | _ => cases read

theorem documentsPath_names (store : Store) :
    store.documentsPath ≠ "" ∧ namesDirectory store.documentsPath = false := by
  have spelled : store.documentsPath.toList = store.indexPath.toList ++ ".meta.json".toList := by
    rw [documentsPath, String.toList_append]
  have last : store.documentsPath.toList.getLast? = some 'n' := by
    rw [spelled, getLast?_append]
    rfl
  have unending : ∀ {ending : String} {c}, ending.toList.getLast? = some c → c ≠ 'n' →
      endsWith ending store.documentsPath = false := by
    intro ending c final other
    refine Bool.eq_false_iff.mpr fun ends => ?_
    rcases isSuffixOf_iff_suffix.mp ends with ⟨front, equal⟩
    rw [← equal, getLast?_append, final] at last
    exact other (Option.some.inj last)
  constructor
  · intro empty
    rw [empty] at last
    cases last
  · exact Bool.or_eq_false_iff.mpr
      ⟨unending (c := '/') (by decide) (by decide), unending (c := '.') (by decide) (by decide)⟩

/-- A saving leaves an index and its documents, or the documents alone. -/
theorem Left.of_indexed (step : InStep environment store vectors)
    (place : store.indexPath = path) {before prepared between after : Files}
    (ensured : before.ensureDirectories (directoryText store.indexPath) = (.ok (), prepared))
    (written : prepared.write (prepared.fromRoot store.indexPath) store.indexPath
      (.document (Index.toJson ⟨dimension, store.documents.length⟩)) = .ok between)
    (completed : between.write (between.fromRoot store.documentsPath) store.documentsPath
      (.document (.arr store.documents)) = .ok after) :
    Left environment path first after vectors := by
  rw [← place]
  have saved := statText_of_saved ensured written
  rcases statText_eq_file.mp saved with ⟨present, plain, held⟩
  rw [← write_fromRoot completed] at held
  rcases stat_of_write_other completed held with kept | replaced
  · have beside : after.stat (after.fromRoot store.documentsPath) =
        .ok (.file (.document (.arr store.documents))) := by
      rw [write_fromRoot completed]
      exact stat_of_write completed
    rcases documentsPath_names store with ⟨named, unending⟩
    exact .index store.documents step.vectors
      (statText_eq_file.mpr ⟨present, plain, kept⟩)
      (statText_eq_file.mpr ⟨named, unending, beside⟩)
  · exact .documents store.documents step.vectors
      (statText_eq_file.mpr ⟨present, plain, replaced⟩)

theorem Left.gains {before after : Files} (left : Left environment path first before written)
    (gains : GainsDirectories before after) : Left environment path first after written := by
  cases left with
  | nothing since => exact .nothing (since.gains gains)
  | index documents vectors index beside =>
      exact .index documents vectors (gains.statText_file index) (gains.statText_file beside)
  | documents documents vectors alone =>
      exact .documents documents vectors (gains.statText_file alone)

/-- Where there is no index, loading a store that has one changes nothing. -/
theorem load_of_rereads_eq_false (indexed : store.index = some index)
    (unread : Tracked.rereads files store.indexPath = false) : (store.load files).2 = store := by
  rw [load]
  by_cases there : files.holdsText store.indexPath = true
  · rw [if_pos there]
    rw [Tracked.rereads, there, Bool.true_and] at unread
    cases found : readIndex files store.indexPath with
    | error fault => simp only [indexed]
    | ok read =>
        rw [found] at unread
        cases unread
  · rw [if_neg there]

theorem load_of_index {old : Index} (indexed : store.index = some old)
    (index : files.statText store.indexPath =
      .ok (.file (.document (Index.toJson ⟨dimension, documents.length⟩))))
    (beside : files.statText store.documentsPath = .ok (.file (.document (.arr documents)))) :
    store.load files = (.ok (), { store with
      index := some ⟨dimension, documents.length⟩
      documents := documents }) := by
  have read : readIndex files store.indexPath = .ok ⟨dimension, documents.length⟩ := by
    rw [readIndex_of_statText index]
    rfl
  have listed : readDocument files store.documentsPath = .ok (.arr documents) := by
    have opened := open?_of_stat (statText_eq_file.mp beside).2.2 store.documentsPath
    rw [readDocument, opened]
    rfl
  rw [load, if_pos (holdsText_of_statText index)]
  simp only [indexed, read, if_pos (holdsText_of_statText beside), listed]
  rfl

/-- Loading a store brings it in step with what savings have left, or changes nothing. -/
theorem Left.load (left : Left environment store.indexPath first files written)
    (reserved : first.Reserved store.indexPath) (step : InStep environment store vectors)
    {outcome : Outcome Unit} {loaded : Store} (took : store.load files = (outcome, loaded)) :
    loaded.indexPath = store.indexPath ∧ InStep environment loaded
      (if Tracked.rereads files store.indexPath then written else vectors) := by
  cases unread : Tracked.rereads files store.indexPath with
  | false =>
      have same := load_of_rereads_eq_false step.index unread
      rw [took] at same
      cases same
      exact ⟨rfl, step⟩
  | true =>
      rw [Tracked.rereads, Bool.and_eq_true] at unread
      cases left with
      | nothing since =>
          cases opened : files.open? (files.fromRoot store.indexPath) store.indexPath with
          | error fault =>
              rw [readIndex, opened] at unread
              cases unread.2
          | ok content => exact (since.of_stat reserved (stat_of_open? opened)).elim
      | index documents matched index beside =>
          rw [load_of_index step.index index beside] at took
          cases took
          exact ⟨rfl, inStep_iff.mpr ⟨rfl, matched⟩⟩
      | documents documents matched alone =>
          rw [readIndex_of_statText alone, ofJson?_documents matched] at unread
          cases unread.2

/-! ## What a step keeps -/

theorem InStep.grown {held added : List Vector} (step : InStep environment store held)
    (embeds : Forall₂ (Embeds environment) documents added) :
    InStep environment (store.grown documents added) (held ++ added) := by
  refine inStep_iff.mpr ⟨?_, rel_append step.vectors embeds⟩
  simp only [Store.grown, step.index, Option.map_some, length_append, embeds.length_eq,
    Int.natCast_add]

theorem addedVectors_of_calls (indexed : store.index = some index) {before after : World}
    (calls : after.library.calls = before.library.calls ++ store.callsOf vectors) :
    addedVectors before after = vectors := by
  rw [addedVectors, calls, drop_left, callsOf, indexed]
  exact append_nil vectors

/-- A store that is opened where no vectors are starts with an index without vectors. -/
theorem startingIndex_eq (starts : startingIndex files path = .ok index)
    (empty : index.total = 0) : index = ⟨dimension, 0⟩ := by
  rw [startingIndex] at starts
  split at starts
  · rcases Outcome.exists_of_map starts with ⟨found, _, rfl⟩
    split at empty
    · next fits =>
        rw [if_pos fits]
        cases found
        cases fits
        cases empty
        rfl
    · next differs =>
        rw [if_neg differs]
        rfl
  · cases starts
    rfl

end

/-- The stores of one path are in step, and so is what they have left there. -/
structure Synced (environment : Environment) (path : String) (first : Files) (tracked : Tracked) :
    Prop where
  installed : tracked.session.world.library.isInstalled = true
  stores : Forall₂ (fun store vectors => InStep environment store vectors ∧
    store.indexPath = path) tracked.session.stores tracked.held
  left : Left environment path first tracked.session.world.files tracked.written

/-- A step of a session whose stores all have one path and use the search library. -/
def OnPath (path : String) (step : Step) : Prop :=
  ∀ given wantsLibrary, step = .opening given wantsLibrary →
    pathOf given = path ∧ wantsLibrary = true

/-- At the path there is an index with vectors, which a store that is opened starts with. -/
def VectorsAt (files : Files) (path : String) : Prop :=
  ∃ index, startingIndex files path = .ok index ∧ index.total ≠ 0

/-- A saving does not end between its two files: if it fails, it has written none. -/
def Whole (environment : Environment) (session : Session) (step : Step) : Prop :=
  ∀ position fault, step = .saving position →
    (session.perform environment step).1 = .error fault →
    GainsDirectories session.world.files
      (session.perform environment step).2.world.files

section

variable {environment : Environment} {config : LanguageModel.Config} {path : String}
  {first : Files}

theorem isInstalled_perform (environment : Environment) (session : Session) (step : Step) :
    (session.perform environment step).2.world.library.isInstalled =
      session.world.library.isInstalled := by
  have keeps : ∀ (store : Store) documents, Action.Keeps
      (fun world => world.library.isInstalled) (store.add environment documents) := by
    intro store documents
    exact keeps_add (fun _ _ => spares_of_ignores fun _ _ _ => rfl) (fun _ _ same => same)
      store documents
  have takes := takes_perform environment session step
  generalize (session.perform environment step).1 = outcome at takes
  generalize (session.perform environment step).2 = later at takes ⊢
  cases takes with
  | idle => rfl
  | opened => rfl
  | unopened => rfl
  | added _ ran => exact (keeps _ _).eq ran
  | refused _ ran => exact (keeps _ _).eq ran
  | saved => rfl
  | loaded => rfl

namespace Synced

variable {tracked : Tracked} (synced : Synced environment path first tracked)

include synced

variable {position : Nat}

theorem idle {step : Step} (about : step.position? = some position)
    (absent : tracked.session.stores[position]? = none) :
    Synced environment path first (tracked.follow step (.ok ()) tracked.session) := by
  have unheld := forall₂_getElem?_eq_none synced.stores absent
  cases step with
  | opening => cases about
  | adding place documents =>
      cases about
      refine ⟨synced.installed, ?_, synced.left⟩
      simp only [Tracked.follow]
      rw [set_eq_of_length_le (getElem?_eq_none_iff.mp unheld)]
      exact synced.stores
  | saving place =>
      cases about
      refine ⟨synced.installed, synced.stores, ?_⟩
      simp only [Tracked.follow, unheld, Option.getD_none]
      exact synced.left
  | loading place =>
      cases about
      refine ⟨synced.installed, ?_, synced.left⟩
      simp only [Tracked.follow, absent]
      exact synced.stores

/-- A store that starts without vectors is in step. -/
theorem opened {given : Option String} (place : pathOf given = path) {index : Index}
    (starts : startingIndex tracked.session.world.files path = .ok index)
    (empty : index.total = 0) (wantsLibrary : Bool) :
    Synced environment path first (tracked.follow (.opening given wantsLibrary) (.ok ())
      { tracked.session with
        stores := tracked.session.stores ++ [⟨path, some index, [], []⟩] }) := by
  have without : Tracked.startingVectors tracked.session.world.files (pathOf given)
      tracked.written = [] := by
    rw [Tracked.startingVectors, place, starts]
    exact if_pos empty
  refine ⟨synced.installed, ?_, synced.left⟩
  simp only [Tracked.follow, without]
  refine rel_append synced.stores (.cons ⟨inStep_iff.mpr ⟨?_, .nil⟩, rfl⟩ .nil)
  rw [startingIndex_eq starts empty]
  rfl

theorem added {documents : Json} {store grown : Store} {world : World}
    (there : tracked.session.stores[position]? = some store)
    (ran : (store.add environment documents).run.run tracked.session.world = (.ok grown, world))
    (installed : world.library.isInstalled = true)
    (kept : world.files = tracked.session.world.files) :
    Synced environment path first (tracked.follow (.adding position documents) (.ok ())
      ⟨world, tracked.session.stores.set position grown⟩) := by
  rcases forall₂_getElem? synced.stores there with ⟨held, found, own, place⟩
  rcases of_add ran with ⟨added, vectors, _, embeds, rfl, calls⟩
  have told : addedVectors tracked.session.world world = vectors :=
    addedVectors_of_calls own.index calls
  refine ⟨installed, ?_, kept.symm ▸ synced.left⟩
  simp only [Tracked.follow, found, Option.getD_some, told]
  exact forall₂_set synced.stores ⟨own.grown embeds, place⟩ position

theorem saved {position : Nat} {store : Store} {outcome : Outcome Unit} {files : Files}
    (there : tracked.session.stores[position]? = some store)
    (saves : store.Saves tracked.session.world.files outcome files)
    (whole : ∀ fault, outcome = .error fault →
      GainsDirectories tracked.session.world.files files) :
    Synced environment path first (tracked.follow (.saving position) outcome
      { tracked.session with world := { tracked.session.world with files } }) := by
  rcases forall₂_getElem? synced.stores there with ⟨held, found, own, place⟩
  cases saves with
  | refused gains => exact ⟨synced.installed, synced.stores, synced.left.gains gains⟩
  | torn _ _ _ =>
      exact ⟨synced.installed, synced.stores, synced.left.gains (whole _ rfl)⟩
  | plain without => cases without.symm.trans own.index
  | indexed indexed ensured written completed =>
      cases indexed.symm.trans own.index
      refine ⟨synced.installed, synced.stores, ?_⟩
      simp only [Tracked.follow, found, Option.getD_some]
      exact .of_indexed own place ensured written completed

theorem loaded (reserved : first.Reserved path) {store loaded : Store} {outcome : Outcome Unit}
    (there : tracked.session.stores[position]? = some store)
    (took : store.load tracked.session.world.files = (outcome, loaded)) :
    Synced environment path first (tracked.follow (.loading position) outcome
      { tracked.session with stores := tracked.session.stores.set position loaded }) := by
  rcases forall₂_getElem? synced.stores there with ⟨held, found, own, rfl⟩
  rcases synced.left.load reserved own took with ⟨place, step⟩
  refine ⟨synced.installed, ?_, synced.left⟩
  simp only [Tracked.follow, there]
  split at step
  · next rereads =>
      rw [if_pos rereads]
      exact forall₂_set synced.stores ⟨step, place⟩ position
  · next unread =>
      rw [if_neg unread]
      rcases List.getElem?_eq_some_iff.mp found with ⟨inside, rfl⟩
      have set := forall₂_set synced.stores ⟨step, place⟩ position
      rw [set_getElem_self inside] at set
      exact set

theorem perform (configured : LanguageModel.Config.load environment = .ok config)
    (on : config.isEnabled = true) (reserved : first.Reserved path) {step : Step}
    (onPath : OnPath path step) (whole : Whole environment tracked.session step)
    (harmless : ∀ given wantsLibrary, step = .opening given wantsLibrary →
      ¬ VectorsAt tracked.session.world.files path) :
    Synced environment path first (tracked.perform environment step) := by
  have installed := isInstalled_perform environment tracked.session step
  rw [synced.installed] at installed
  have takes := takes_perform environment tracked.session step
  have kept := takes.files_eq
  unfold Whole at whole
  unfold Tracked.perform
  generalize (tracked.session.perform environment step).1 = outcome at takes whole ⊢
  generalize (tracked.session.perform environment step).2 = later at takes kept whole installed ⊢
  cases takes with
  | idle about absent => exact synced.idle about absent
  | opened ran =>
      rcases onPath _ _ rfl with ⟨place, rfl⟩
      rw [run_new_indexed configured (by rw [synced.installed, on]; rfl), place] at ran
      rcases Outcome.exists_of_map (congrArg Prod.fst ran) with ⟨index, starts, rfl⟩
      have empty : index.total = 0 := by
        by_contra vectors
        exact harmless _ _ rfl ⟨index, starts, vectors⟩
      exact synced.opened place starts empty true
  | unopened => exact ⟨installed, synced.stores, synced.left⟩
  | added there ran => exact synced.added there ran installed (kept rfl)
  | refused there ran => exact ⟨installed, synced.stores, (kept rfl).symm ▸ synced.left⟩
  | saved there saves => exact synced.saved there saves fun fault failed => whole _ _ rfl failed
  | loaded there took => exact synced.loaded reserved there took

end Synced

theorem isInstalled_after (environment : Environment) (session : Session) (steps : List Step) :
    (session.after environment steps).world.library.isInstalled =
      session.world.library.isInstalled := by
  refine after_induction environment session
    (fun later => later.world.library.isInstalled = session.world.library.isInstalled) steps ?_ rfl
  intro later step _ same
  rw [isInstalled_perform, same]

theorem perform_opening_indexed (configured : LanguageModel.Config.load environment = .ok config)
    (on : config.isEnabled = true) {session : Session}
    (installed : session.world.library.isInstalled = true) {given : Option String} {index : Index}
    (starts : startingIndex session.world.files (pathOf given) = .ok index) :
    session.perform environment (.opening given true) = (.ok (), { session with
      stores := session.stores ++ [⟨pathOf given, some index, [], []⟩] }) := by
  have uses : (true && session.world.library.isInstalled && config.isEnabled) = true := by
    rw [installed, on]
    rfl
  simp only [perform, run_new_indexed configured uses, starts]
  rfl

/-- A store that is opened where vectors are is out of step at once. -/
theorem not_allInStep_of_vectorsAt (configured : LanguageModel.Config.load environment = .ok config)
    (on : config.isEnabled = true) {tracked : Tracked}
    (installed : tracked.session.world.library.isInstalled = true) {given : Option String}
    (vectors : VectorsAt tracked.session.world.files (pathOf given)) :
    ¬ (tracked.perform environment (.opening given true)).AllInStep environment := by
  rcases vectors with ⟨index, starts, some_⟩
  intro steps
  rw [Tracked.AllInStep, Tracked.perform, Tracked.session_follow,
    perform_opening_indexed configured on installed starts] at steps
  rcases forall₂_getElem? steps getElem?_concat_length with ⟨held, _, own⟩
  rw [Option.some.inj own.index] at some_
  exact some_ rfl

/-- The stores of one path are in step with their indexes all the time exactly when none of them is
opened while there are vectors in the index at the path. -/
theorem in_step_iff_opened_without_vectors
    (configured : LanguageModel.Config.load environment = .ok config)
    (on : config.isEnabled = true) {world : World} (installed : world.library.isInstalled = true)
    (reserved : world.files.Reserved path) {steps : List Step}
    (onPath : ∀ step ∈ steps, OnPath path step) (whole : ∀ before step, before ++ [step] <+: steps →
      Whole environment ((start world).after environment before) step) :
    (∀ before, before <+: steps →
        ((Tracked.start world).after environment before).AllInStep environment) ↔
      ∀ before given wantsLibrary, before ++ [.opening given wantsLibrary] <+: steps →
        ¬ VectorsAt ((start world).after environment before).world.files path := by
  have follows : ∀ before, ((Tracked.start world).after environment before).session =
      (start world).after environment before := Tracked.session_after environment _
  constructor
  · intro inStep before given wantsLibrary opens vectors
    have later := inStep _ opens
    rcases onPath _ (opens.subset (mem_append_right before mem_cons_self)) _ _ rfl with
      ⟨rfl, rfl⟩
    rw [Tracked.after_concat] at later
    rw [← follows] at vectors
    refine not_allInStep_of_vectorsAt configured on ?_ vectors later
    rw [follows, isInstalled_after]
    exact installed
  · intro harmless
    have synced : ∀ before, before <+: steps →
        Synced environment path world.files ((Tracked.start world).after environment before) := by
      intro before
      induction before using reverseRecOn with
      | nil => exact fun _ => ⟨installed, .nil, .nothing (.refl world.files)⟩
      | append_singleton before step ih =>
          intro within
          have sooner := ih ((prefix_append before [step]).trans within)
          have member := within.subset (mem_append_right before mem_cons_self)
          rw [Tracked.after_concat]
          apply sooner.perform configured on reserved (onPath step member)
          · rw [follows]
            exact whole before step within
          · intro given wantsLibrary equal
            rw [follows]
            exact harmless before given wantsLibrary (equal ▸ within)
    intro before within
    exact (synced before within).stores.imp fun _ _ own => own.1

end

/-! ## A store that is opened again -/

/-- A document with nothing but a text. -/
def plainDocument (text : String) : Json := .obj [("text", .str text)]

/-- The language model is turned on, and embeddings are made from the texts. -/
def modelOn : Environment := [("USE_LLM", "true")]

/-- A store gets a document and is saved. -/
def savedOnce : List Step :=
  [.opening (some "d/x") true, .adding 0 (.arr [plainDocument "alpha"]), .saving 0]

/-- The store that has been saved. -/
def alphaStore : Store :=
  ⟨"d/x", some ⟨dimension, 1⟩, [plainDocument "alpha"], [vectorJson (ofText "alpha")]⟩

/-- The world before the store is saved. -/
def toldWorld : World :=
  ⟨⟨.dir [], []⟩, ⟨false, [], []⟩, ⟨true, [], [.add [ofText "alpha"]]⟩, .unused false, []⟩

/-- The directory with an index and its documents. -/
def savedFiles : Files := directoryWith
  [("x", .file (.document (Index.toJson ⟨dimension, 1⟩))),
    ("x.meta.json", .file (.document (.arr [plainDocument "alpha"])))]

theorem exists_config : ∃ config, LanguageModel.Config.load modelOn = .ok config ∧
    config.isEnabled = true := by
  have shown : (match LanguageModel.Config.load modelOn with
      | .ok config => config.isEnabled
      | .error _ => false) = true := by decide +kernel
  cases loaded : LanguageModel.Config.load modelOn with
  | error fault =>
      rw [loaded] at shown
      cases shown
  | ok config =>
      rw [loaded] at shown
      exact ⟨config, rfl, shown⟩

theorem startingIndex_emptyWorld :
    startingIndex (emptyWorld true).files "d/x" = .ok ⟨dimension, 0⟩ := by
  have absent : (emptyWorld true).files.holdsText "d/x" = false := by cbv
  rw [startingIndex, absent]
  rfl

theorem startingIndex_savedFiles : startingIndex savedFiles "d/x" = .ok ⟨dimension, 1⟩ := by
  have found : savedFiles.statText "d/x" =
      .ok (.file (.document (Index.toJson ⟨dimension, 1⟩))) := by cbv
  rw [startingIndex, if_pos (holdsText_of_statText found),
    readIndex_of_statText found]
  rfl

theorem write_documents (index content : Content) :
    (directoryWith [("x", .file index)]).write
      ((directoryWith [("x", .file index)]).fromRoot "d/x.meta.json") "d/x.meta.json" content =
      .ok (directoryWith [("x", .file index), ("x.meta.json", .file content)]) := by
  have place : (directoryWith [("x", .file index)]).fromRoot "d/x.meta.json" =
      ["d", "x.meta.json"] := by
    change (if _ then _ else [] ++ names "d/x.meta.json") = _
    decide
  rw [place]
  cbv

theorem run_save_toldWorld :
    alphaStore.save.run.run toldWorld = (.ok (), { toldWorld with files := savedFiles }) :=
  @run_save_indexed alphaStore ⟨dimension, 1⟩ rfl toldWorld _ _ _
    (ensureDirectories_emptyWorld true) (write_index _) (write_documents _ _)

theorem after_opening : (Tracked.start (emptyWorld true)).after modelOn (savedOnce.take 1) =
    ⟨⟨emptyWorld true, [⟨"d/x", some ⟨dimension, 0⟩, [], []⟩]⟩, [[]], []⟩ := by
  rcases exists_config with ⟨config, configured, on⟩
  have opened := @perform_opening_indexed modelOn config configured on (.start (emptyWorld true))
    rfl (some "d/x") _ startingIndex_emptyWorld
  have without : Tracked.startingVectors (emptyWorld true).files "d/x" [] = [] := by
    rw [Tracked.startingVectors, startingIndex_emptyWorld]
    rfl
  change (Tracked.start (emptyWorld true)).follow _ _ _ = _
  rw [Tracked.start, opened]
  simp only [Tracked.follow]
  exact congrArg (fun held => (⟨⟨emptyWorld true, _⟩, [held], []⟩ : Tracked)) without

theorem after_adding : (Tracked.start (emptyWorld true)).after modelOn (savedOnce.take 2) =
    ⟨⟨toldWorld, [alphaStore]⟩, [[ofText "alpha"]], []⟩ := by
  have steps := Tracked.after_concat modelOn (.start (emptyWorld true)) (savedOnce.take 1)
    (.adding 0 (.arr [plainDocument "alpha"]))
  rw [after_opening] at steps
  exact steps

/-- After the store has been saved, it is in step, and so are its files. -/
theorem after_savedOnce : (Tracked.start (emptyWorld true)).after modelOn savedOnce =
    ⟨⟨{ toldWorld with files := savedFiles }, [alphaStore]⟩, [[ofText "alpha"]],
      [ofText "alpha"]⟩ := by
  have steps := Tracked.after_concat modelOn (.start (emptyWorld true)) (savedOnce.take 2)
    (.saving 0)
  have saved := @perform_saving_eq modelOn ⟨toldWorld, [alphaStore]⟩ 0 alphaStore _ rfl _
    run_save_toldWorld
  rw [after_adding, Tracked.perform, saved] at steps
  exact steps

theorem savedOnce_whole (before : List Step) (step : Step)
    (within : before ++ [step] <+: savedOnce ++ [.loading 0]) :
    Whole modelOn ((start (emptyWorld true)).after modelOn before) step := by
  intro position fault saving failed
  rcases within with ⟨rest, equal⟩
  rw [saving] at equal
  -- Only the third step is a saving, and it succeeds.
  rcases before with _ | ⟨first, _ | ⟨second, _ | ⟨third, _ | ⟨fourth, more⟩⟩⟩⟩
  · cases equal
  · cases equal
  · cases equal
    have session := Tracked.session_after modelOn (.start (emptyWorld true)) (savedOnce.take 2)
    rw [after_adding] at session
    have saved := @perform_saving_eq modelOn ⟨toldWorld, [alphaStore]⟩ 0 alphaStore _ rfl _
      run_save_toldWorld
    rw [saving] at failed
    change (((start (emptyWorld true)).after modelOn (savedOnce.take 2)).perform modelOn
      (.saving 0)).1 = _ at failed
    rw [show (start (emptyWorld true)).after modelOn (savedOnce.take 2) =
      ⟨toldWorld, [alphaStore]⟩ from session.symm, saved] at failed
    cases failed
  · cases equal
  · have lengths := congrArg length equal
    simp [savedOnce] at lengths

/-- A store that is opened before anything is saved stays in step through a saving and a loading. -/
theorem savedOnce_in_step :
    (∀ step ∈ savedOnce ++ [.loading 0], OnPath "d/x" step) ∧
      ∀ before, before <+: savedOnce ++ [.loading 0] →
        ((Tracked.start (emptyWorld true)).after modelOn before).AllInStep modelOn := by
  have onPath : ∀ step ∈ savedOnce ++ [.loading 0], OnPath "d/x" step := by
    intro step member given wantsLibrary equal
    rw [equal] at member
    simp [savedOnce] at member
    rw [member.1, member.2]
    exact ⟨rfl, rfl⟩
  rcases exists_config with ⟨config, configured, on⟩
  refine ⟨onPath, (in_step_iff_opened_without_vectors configured on rfl
    (reserved_emptyWorld true "d/x") onPath savedOnce_whole).mpr ?_⟩
  rintro before given wantsLibrary ⟨rest, equal⟩ ⟨index, starts, vectors⟩
  rcases before with _ | ⟨first, _ | ⟨second, _ | ⟨third, _ | ⟨fourth, more⟩⟩⟩⟩
  · cases starts.symm.trans startingIndex_emptyWorld
    exact vectors rfl
  · cases equal
  · cases equal
  · cases equal
  · have lengths := congrArg length equal
    simp [savedOnce] at lengths

theorem after_reopening : (Tracked.start (emptyWorld true)).after modelOn
      (savedOnce ++ [.opening (some "d/x") true]) =
    ⟨⟨{ toldWorld with files := savedFiles },
        [alphaStore, ⟨"d/x", some ⟨dimension, 1⟩, [], []⟩]⟩,
      [[ofText "alpha"], [ofText "alpha"]], [ofText "alpha"]⟩ := by
  rcases exists_config with ⟨config, configured, on⟩
  have opened := @perform_opening_indexed modelOn config configured on
    ⟨{ toldWorld with files := savedFiles }, [alphaStore]⟩ rfl (some "d/x") _
    startingIndex_savedFiles
  have started : Tracked.startingVectors savedFiles (pathOf (some "d/x")) [ofText "alpha"] =
      [ofText "alpha"] := by
    change (match startingIndex savedFiles "d/x" with
      | .ok index => if index.total = 0 then [] else [ofText "alpha"]
      | .error _ => []) = _
    rw [startingIndex_savedFiles]
    rfl
  rw [Tracked.after_concat, after_savedOnce, Tracked.perform, opened]
  simp only [Tracked.follow, started]
  rfl

/-- When the store is opened once more, the first position of its index means the document that is
added then and not the one whose vector is there. -/
theorem reopened_out_of_step :
    let tracked := (Tracked.start (emptyWorld true)).after modelOn
      (savedOnce ++ [.opening (some "d/x") true, .adding 1 (.arr [plainDocument "beta"])])
    (∃ store, tracked.session.stores[1]? = some store ∧ store.index = some ⟨dimension, 2⟩ ∧
        itemAt store.documents 0 = .ok (plainDocument "beta")) ∧
      tracked.held[1]? = some [ofText "alpha", ofText "beta"] ∧
      ¬ tracked.AllInStep modelOn := by
  have steps : (Tracked.start (emptyWorld true)).after modelOn
      (savedOnce ++ [.opening (some "d/x") true, .adding 1 (.arr [plainDocument "beta"])]) =
      ⟨⟨{ toldWorld with
          files := savedFiles
          library := ⟨true, [], [.add [ofText "alpha"], .add [ofText "beta"]]⟩ },
          [alphaStore, ⟨"d/x", some ⟨dimension, 2⟩, [plainDocument "beta"],
            [vectorJson (ofText "beta")]⟩]⟩,
        [[ofText "alpha"], [ofText "alpha", ofText "beta"]], [ofText "alpha"]⟩ := by
    have added := Tracked.after_concat modelOn (.start (emptyWorld true))
      (savedOnce ++ [.opening (some "d/x") true]) (.adding 1 (.arr [plainDocument "beta"]))
    rw [after_reopening] at added
    exact added
  rw [steps]
  refine ⟨⟨_, rfl, rfl, rfl⟩, rfl, ?_⟩
  intro inStep
  cases inStep with
  | cons _ others =>
      cases others with
      | cons own _ => cases own.index

end Retrieval
end CodeQuality
