import CodeQuality.Proofs.Json.Lines
import CodeQuality.Proofs.Retrieval.Session

namespace CodeQuality

open Retrieval.Session Retrieval.Store

namespace Retrieval

/-!
Stores whose vectors are made from the texts alone.

With the language model turned off, a store keeps two lists side by side: documents,
and a vector for each of them.  The lists go to a file as one record a line, and are
rebuilt from the lines.  In every session the vectors are those of the texts of the
documents in the same order, and what has been saved is what is loaded.

Files are only asked to be written by savings: no path of a store may lead, now or
later, to a file that was there before the session.  That a record can be read back
from its own text is a matter of JSON numbers and is assumed where the bytes of a file
are considered.
-/

/-- An embedding is the vector that is made from the text of a document. -/
def IsVectorOf (document embedding : Json) : Prop :=
  ∃ text, document.element "text" = .ok (.str text) ∧ embedding = vectorJson (ofText text)

/-- The embeddings of a store are those of its documents, in the same order. -/
def Store.Aligned (store : Store) : Prop :=
  List.Forall₂ IsVectorOf store.documents store.embeddings

/-- The documents are a list of documents each of which has a text. -/
def HaveTexts (documents : Json) : Prop :=
  ∃ added, documents.elements = .ok added ∧
    ∀ document ∈ added, ∃ text, document.element "text" = .ok (.str text)

/-- The language model is turned off. -/
def ModelOff (environment : Environment) : Prop :=
  ∀ config, LanguageModel.Config.load environment = .ok config → config.isEnabled = false

/-! ## Vectors made from texts -/

theorem ofValue_eq_ok {value : Json} {vector : Vector} :
    ofValue value = .ok vector ↔ ∃ text, value = .str text ∧ vector = ofText text := by
  constructor
  · intro given
    cases value with
    | str text =>
        cases given
        exact ⟨text, rfl, rfl⟩
    | null => cases given
    | bool value => cases given
    | int value => cases given
    | float value => cases given
    | arr items => cases given
    | obj members => cases given
  · rintro ⟨text, rfl, rfl⟩
    rfl

theorem Embeds.isVectorOf {environment : Environment} (off : ModelOff environment)
    {document : Json} {vector : Vector} (embeds : Embeds environment document vector) :
    IsVectorOf document (vectorJson vector) := by
  rcases embeds with ⟨value, read, world, after, ran⟩
  rcases load_of_run_embed ran with ⟨config, loaded⟩
  have asks : asksModel config world = false := by
    rw [asksModel, off config loaded, Bool.false_and, Bool.false_and]
  rw [run_embed loaded, asks] at ran
  have given : (ofValue value >>= fun vector => pure [vector]) = .ok [vector] :=
    congrArg Prod.fst ((Action.run_mapM_ofOutcome ofValue [value] world).symm.trans ran)
  rcases Outcome.exists_of_bind given with ⟨own, made, same⟩
  cases same
  rcases ofValue_eq_ok.mp made with ⟨text, rfl, rfl⟩
  exact ⟨text, read, rfl⟩

namespace Store

theorem Aligned.grown {store : Store} (aligned : store.Aligned) {added : List Json}
    {vectors : List Vector}
    (matched : List.Forall₂ (fun document vector => IsVectorOf document (vectorJson vector))
      added vectors) : (store.grown added vectors).Aligned := by
  apply List.rel_append aligned
  rw [List.forall₂_map_right_iff]
  exact matched

/-- Adding documents succeeds exactly when they have texts. -/
theorem add_eq_ok_iff {environment : Environment} (off : ModelOff environment)
    {config : LanguageModel.Config} (loaded : LanguageModel.Config.load environment = .ok config)
    {store : Store} (plain : store.index = none) (documents : Json) (world : World) :
    (∃ grown, ((store.add environment documents).run.run world).1 = .ok grown) ↔
      HaveTexts documents := by
  constructor
  · rintro ⟨grown, ran⟩
    rcases of_add (Prod.ext ran rfl) with ⟨added, vectors, listed, embeds, _⟩
    refine ⟨added, listed, ?_⟩
    intro document member
    rcases List.mem_iff_get.mp member with ⟨place, rfl⟩
    have own := embeds.get place.isLt (embeds.length_eq ▸ place.isLt)
    rcases own.isVectorOf off with ⟨text, read, _⟩
    exact ⟨text, read⟩
  · rintro ⟨added, listed, texts⟩
    rw [run_add_plain loaded (off config loaded) plain, listed]
    have reads : ∀ document ∈ added, ∃ value, document.element "text" = .ok value ∧
        ∃ text, value = .str text := by
      intro document member
      rcases texts document member with ⟨text, read⟩
      exact ⟨.str text, read, text, rfl⟩
    rcases Outcome.exists_mapM_eq_ok reads with ⟨values, read, spelled⟩
    have makes : ∀ value ∈ values, ∃ vector, ofValue value = .ok vector ∧ True := by
      intro value member
      rcases spelled value member with ⟨text, rfl⟩
      exact ⟨ofText text, rfl, trivial⟩
    rcases Outcome.exists_mapM_eq_ok makes with ⟨vectors, made, _⟩
    refine ⟨store.grown added vectors, ?_⟩
    change ((added.mapM fun document => document.element "text") >>= _) = _
    rw [read]
    change (values.mapM ofValue >>= _) = _
    rw [made]
    rfl

end Store

/-! ## Sessions -/

/-- What a saving of an aligned store writes. -/
def IsSavedContent (content : Files.Content) : Prop :=
  ∃ store : Store, store.Aligned ∧ content = .records store.records

/-- A store without an index whose vectors are those of its documents and whose path leads to no
file that was there first. -/
structure LocalStore (environment : Environment) (first : Files) (store : Store) : Prop where
  plain : store.index = none
  aligned : store.Aligned
  reserved : first.Reserved store.indexPath
  configured : ∃ config, LanguageModel.Config.load environment = .ok config

namespace LocalStore

variable {environment : Environment} {first : Files} {store : Store}

theorem of_new (off : ModelOff environment) {path : Option String} {wantsLibrary : Bool}
    {world : World} (reserved : first.Reserved (pathOf path))
    (ran : (new environment path wantsLibrary).run.run world = (.ok store, world)) :
    LocalStore environment first store := by
  cases loaded : LanguageModel.Config.load environment with
  | error fault =>
      rw [run_new_of_error loaded] at ran
      cases ran
  | ok config =>
      have without : (wantsLibrary && world.library.isInstalled && config.isEnabled) = false := by
        rw [off config loaded, Bool.and_false]
      rw [run_new_plain loaded without] at ran
      cases ran
      exact ⟨rfl, .nil, reserved, config, loaded⟩

theorem of_add (off : ModelOff environment) (local_ : LocalStore environment first store)
    {documents : Json} {grown : Store} {world after : World}
    (ran : (store.add environment documents).run.run world = (.ok grown, after)) :
    LocalStore environment first grown := by
  rcases Store.of_add ran with ⟨added, vectors, _, embeds, rfl, _⟩
  have matched := embeds.imp fun _ _ own => own.isVectorOf off
  refine ⟨?_, local_.aligned.grown matched, local_.reserved, local_.configured⟩
  rw [grown, local_.plain, Option.map_none]

theorem of_load (local_ : LocalStore environment first store) {files : Files}
    (since : Files.WrittenSince IsSavedContent first files) {outcome : Outcome Unit} {loaded : Store}
    (took : store.load files = (outcome, loaded)) : LocalStore environment first loaded := by
  by_cases found : ∃ content, files.statText store.indexPath = .ok (.file content)
  · rcases found with ⟨content, found⟩
    rcases since.of_stat local_.reserved (Files.statText_eq_file.mp found).2.2 with
      ⟨saved, aligned, rfl⟩
    rw [load_of_lines local_.plain aligned.length_eq found rfl] at took
    cases took
    exact ⟨local_.plain, aligned, local_.reserved, local_.configured⟩
  · have nowhere : ∀ content, files.statText store.indexPath ≠ .ok (.file content) :=
      fun content there => found ⟨content, there⟩
    rcases load_without_file local_.plain nowhere took with rfl | rfl
    · exact local_
    · exact ⟨local_.plain, .nil, local_.reserved, local_.configured⟩

end LocalStore

/-- The stores of a session are local ones, and so are those that they have saved. -/
structure LocalSession (environment : Environment) (first : Files) (session : Session) : Prop where
  since : Files.WrittenSince IsSavedContent first session.world.files
  stores : ∀ store ∈ session.stores, LocalStore environment first store

namespace LocalSession

variable {environment : Environment} {first : Files} {session : Session}

theorem set (holds : LocalSession environment first session) {changed : Store}
    (fits : LocalStore environment first changed) (position : Nat) {world : World}
    (same : world.files = session.world.files) :
    LocalSession environment first ⟨world, session.stores.set position changed⟩ := by
  refine ⟨same ▸ holds.since, ?_⟩
  intro other member
  rcases List.mem_or_eq_of_mem_set member with kept | rfl
  · exact holds.stores other kept
  · exact fits

theorem perform (off : ModelOff environment) (holds : LocalSession environment first session)
    {step : Step} (reserved : ∀ path wantsLibrary, step = .opening path wantsLibrary →
      first.Reserved (pathOf path)) :
    LocalSession environment first (session.perform environment step).2 := by
  have takes := takes_perform environment session step
  have kept := takes.files_eq
  generalize (session.perform environment step).1 = outcome at takes
  generalize (session.perform environment step).2 = later at takes kept ⊢
  cases takes with
  | idle => exact holds
  | opened ran =>
      refine ⟨holds.since, ?_⟩
      have fits := LocalStore.of_new off (reserved _ _ rfl) ran
      intro store member
      rcases List.mem_append.mp member with before | last
      · exact holds.stores store before
      · rw [List.mem_singleton.mp last]
        exact fits
  | unopened => exact holds
  | added there ran =>
      have fits := (holds.stores _ (List.mem_of_getElem? there)).of_add off ran
      exact holds.set fits _ (kept rfl)
  | refused => exact ⟨kept rfl ▸ holds.since, holds.stores⟩
  | saved there saves =>
      refine ⟨?_, holds.stores⟩
      have own := holds.stores _ (List.mem_of_getElem? there)
      cases saves with
      | refused gains => exact holds.since.gains gains
      | torn indexed => cases own.plain.symm.trans indexed
      | plain _ ensured written =>
          have gains := Files.gains_of_ensureDirectories ensured
          exact (holds.since.gains gains).write ⟨_, own.aligned, rfl⟩ written
      | indexed indexed => cases own.plain.symm.trans indexed
  | loaded there took =>
      have fits := (holds.stores _ (List.mem_of_getElem? there)).of_load holds.since took
      exact holds.set fits _ rfl

theorem after (off : ModelOff environment) {world : World} {steps : List Step}
    (reserved : ∀ path wantsLibrary, .opening path wantsLibrary ∈ steps →
      world.files.Reserved (pathOf path)) :
    LocalSession environment world.files ((start world).after environment steps) := by
  refine after_induction environment (start world)
    (LocalSession environment world.files) steps ?_ ⟨.refl world.files, fun _ member => by cases member⟩
  intro session step member holds
  apply holds.perform off
  intro path wantsLibrary equal
  exact reserved path wantsLibrary (equal ▸ member)

end LocalSession

/-- What can be relied on in a session with local vectors. -/
structure Dependable (environment : Environment) (session : Session) : Prop where
  /-- Vectors and documents go together. -/
  aligned : ∀ store ∈ session.stores, store.Aligned
  /-- Documents are added exactly when each of them has a text. -/
  adds : ∀ position store documents, session.stores[position]? = some store →
    ((session.perform environment (.adding position documents)).1 = .ok () ↔ HaveTexts documents)
  /-- Documents that are added come behind those that were there. -/
  appends : ∀ position store documents added, session.stores[position]? = some store →
    HaveTexts documents → documents.elements = .ok added →
    ∃ grown : Store, grown.documents = store.documents ++ added ∧
      (session.perform environment (.adding position documents)).2 =
        { session with stores := session.stores.set position grown }
  /-- When documents cannot be added, nothing has happened. -/
  refuses : ∀ position documents fault,
    (session.perform environment (.adding position documents)).1 = .error fault →
    (session.perform environment (.adding position documents)).2 = session
  /-- Until the next saving, whoever loads what has been saved gets the documents and the vectors
  of the store that was saved. -/
  restores : ∀ position store, session.stores[position]? = some store →
    (session.perform environment (.saving position)).1 = .ok () →
    ∀ later, (∀ step ∈ later, Step.isSaving step = false) →
    ∀ other : Store, other.indexPath = store.indexPath → other.index = none →
      other.load (((session.perform environment (.saving position)).2.after environment
        later).world.files) =
      (.ok (), { other with documents := store.documents, embeddings := store.embeddings })
  /-- The same is loaded from the bytes of the file, if each record can be read from its text. -/
  legible : ∀ store ∈ session.stores,
    (∀ record ∈ store.records, Json.load (Json.line record) = .ok record) →
    ∀ files : Files, files.statText store.indexPath =
        .ok (.file (.bytes (Files.Content.records store.records).toBytes)) →
    ∀ other : Store, other.indexPath = store.indexPath → other.index = none →
      other.load files =
        (.ok (), { other with documents := store.documents, embeddings := store.embeddings })

/-- The bytes of saved records give the same lines as the records. -/
theorem lineValuesIn_bytes {records : List Json}
    (readable : ∀ record ∈ records, Json.load (Json.line record) = .ok record) :
    lineValuesIn (.bytes (Files.Content.records records).toBytes) = .ok (records.map .ok) := by
  rcases Json.lines_of_records records with ⟨text, decoded, lines⟩
  have read : (records.map Json.line).map Json.load = records.map .ok := by
    rw [List.map_map]
    exact List.map_congr_left readable
  have bytes : (Files.Content.bytes (Files.Content.records records).toBytes).toBytes =
      (Files.Content.records records).toBytes := rfl
  simp only [lineValuesIn, bytes, decoded, lines, read]
  rfl

namespace LocalSession

variable {environment : Environment} {first : Files} {session : Session}

variable {position : Nat} {store : Store}

/-- Adding documents to a store leaves the world as it is. -/
theorem run_add (off : ModelOff environment) (holds : LocalSession environment first session)
    (there : session.stores[position]? = some store) (documents : Json) : ∃ outcome,
      (store.add environment documents).run.run session.world = (outcome, session.world) ∧
      ((∃ grown, outcome = .ok grown) ↔ HaveTexts documents) := by
  have own := holds.stores store (List.mem_of_getElem? there)
  rcases own.configured with ⟨config, loaded⟩
  have ran := run_add_plain loaded (off config loaded) own.plain documents session.world
  refine ⟨_, ran, ?_⟩
  rw [← add_eq_ok_iff off loaded own.plain documents session.world, ran]

theorem adds (off : ModelOff environment) (holds : LocalSession environment first session)
    (there : session.stores[position]? = some store) (documents : Json) :
    (session.perform environment (.adding position documents)).1 = .ok () ↔
      HaveTexts documents := by
  rcases holds.run_add off there documents with ⟨outcome, ran, succeeds⟩
  rw [← succeeds]
  cases outcome with
  | error fault =>
      rw [perform_adding_of_error there ran]
      simp
  | ok grown =>
      rw [perform_adding_of_ok there ran]
      simp

theorem appends (off : ModelOff environment) (holds : LocalSession environment first session)
    (there : session.stores[position]? = some store) {documents : Json}
    (texts : HaveTexts documents) {added : List Json} (listed : documents.elements = .ok added) :
    ∃ grown : Store, grown.documents = store.documents ++ added ∧
      (session.perform environment (.adding position documents)).2 =
        { session with stores := session.stores.set position grown } := by
  rcases holds.run_add off there documents with ⟨outcome, ran, succeeds⟩
  rcases succeeds.mpr texts with ⟨grown, rfl⟩
  rcases of_add ran with ⟨own, vectors, elements, _, rfl, _⟩
  cases listed.symm.trans elements
  refine ⟨store.grown added vectors, rfl, ?_⟩
  rw [perform_adding_of_ok there ran]

theorem refuses (off : ModelOff environment) (holds : LocalSession environment first session)
    {documents : Json} {fault : Fault}
    (failed : (session.perform environment (.adding position documents)).1 = .error fault) :
    (session.perform environment (.adding position documents)).2 = session := by
  cases there : session.stores[position]? with
  | none => simp only [Session.perform, there]
  | some store =>
      rcases holds.run_add off there documents with ⟨outcome, ran, _⟩
      cases outcome with
      | error own => rw [perform_adding_of_error there ran]
      | ok grown =>
          rw [perform_adding_of_ok there ran] at failed
          cases failed

theorem restores (holds : LocalSession environment first session)
    (there : session.stores[position]? = some store)
    (saved : (session.perform environment (.saving position)).1 = .ok ())
    {later : List Step} (quiet : ∀ step ∈ later, step.isSaving = false) {other : Store}
    (path : other.indexPath = store.indexPath) (without : other.index = none) :
    other.load (((session.perform environment (.saving position)).2.after environment
        later).world.files) =
      (.ok (), { other with documents := store.documents, embeddings := store.embeddings }) := by
  have own := holds.stores store (List.mem_of_getElem? there)
  rcases store.of_save session.world with ⟨outcome, files, ran, saves⟩
  rw [perform_saving_eq there ran] at saved ⊢
  cases saved
  rw [files_after_quiet environment _ later quiet]
  have found := saves.statText_records own.plain
  rw [← path] at found
  exact load_of_lines without own.aligned.length_eq found rfl

end LocalSession

/-- With the language model turned off, the vectors of all stores stay those of their documents,
documents are added completely or not at all, and what is loaded is what was saved. -/
theorem local_stores_are_dependable {environment : Environment} (off : ModelOff environment)
    {world : World} {steps : List Step}
    (reserved : ∀ path wantsLibrary, .opening path wantsLibrary ∈ steps →
      world.files.Reserved (pathOf path)) :
    Dependable environment ((start world).after environment steps) := by
  have holds := LocalSession.after off reserved
  refine ⟨?_, ?_, ?_, ?_, ?_, ?_⟩
  · intro store member
    exact (holds.stores store member).aligned
  · intro position store documents there
    exact holds.adds off there documents
  · intro position store documents added there texts listed
    exact holds.appends off there texts listed
  · intro position documents fault failed
    exact holds.refuses off failed
  · intro position store there saved later quiet other path without
    exact holds.restores there saved quiet path without
  · intro store member readable files found other path without
    have own := holds.stores store member
    rw [← path] at found
    exact load_of_lines without own.aligned.length_eq found (lineValuesIn_bytes readable)

/-! ## A session with a text of two lines -/

/-- A document whose text has a line break. -/
def brokenNote : Json := .obj [("text", .str "first\nsecond")]

/-- A store is opened, and a document is added to it. -/
def noteSteps : List Step :=
  [.opening (some "d/x") true, .adding 0 (.arr [brokenNote])]

/-- The store that holds the document. -/
def noteStore : Store :=
  ⟨"d/x", none, [brokenNote], [vectorJson (ofText "first\nsecond")]⟩

theorem modelOff_nil : ModelOff [] := by
  intro config loaded
  have shown : (match LanguageModel.Config.load [] with
      | .ok config => config.isEnabled
      | .error _ => true) = false := rfl
  rw [loaded] at shown
  exact shown

theorem after_noteSteps :
    (start (emptyWorld false)).after [] noteSteps = ⟨emptyWorld false, [noteStore]⟩ := by
  rfl

theorem save_noteStore :
    ((⟨emptyWorld false, [noteStore]⟩ : Session).perform [] (.saving 0)).1 = .ok () := by
  have ran := @run_save_plain noteStore rfl (emptyWorld false) _ _
    (ensureDirectories_emptyWorld false) (write_index _)
  rw [@perform_saving_eq [] ⟨emptyWorld false, [noteStore]⟩ 0 noteStore _ rfl _ ran]

/-- The hypotheses hold for an empty directory, and the document is really saved there. -/
theorem noteSteps_dependable :
    ModelOff [] ∧
      (∀ path wantsLibrary, .opening path wantsLibrary ∈ noteSteps →
        (emptyWorld false).files.Reserved (pathOf path)) ∧
      (start (emptyWorld false)).after [] noteSteps = ⟨emptyWorld false, [noteStore]⟩ ∧
      ((⟨emptyWorld false, [noteStore]⟩ : Session).perform [] (.saving 0)).1 = .ok () ∧
      Dependable [] ((start (emptyWorld false)).after [] noteSteps) :=
  ⟨modelOff_nil, fun path _ _ => reserved_emptyWorld false (pathOf path), after_noteSteps,
    save_noteStore,
    local_stores_are_dependable modelOff_nil fun path _ _ =>
      reserved_emptyWorld false (pathOf path)⟩

end Retrieval
end CodeQuality
