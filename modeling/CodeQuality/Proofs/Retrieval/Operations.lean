import CodeQuality.Proofs.Action
import CodeQuality.Proofs.Files.Saving
import CodeQuality.Proofs.Outcome
import CodeQuality.Retrieval.Store

namespace CodeQuality

open CodeQuality.Action Files LanguageModel List

namespace Retrieval

/-!
What the operations of a store do to the store and to the files.

Opening a store and adding documents leave the files as they are; adding documents may
ask the language model.  Saving makes directories and then writes one file, or an index
and its documents one after the other.  It can stop at every step, so there are four
ways in which a saving can end.
-/

/-! ## Embedding -/

/-- A vector is what embedding the text of a document gives in some world. -/
def Embeds (environment : Environment) (document : Json) (vector : Vector) : Prop :=
  ∃ text, document.element "text" = .ok text ∧
    ∃ world after, (embed environment [text]).run.run world = (.ok [vector], after)

/-- A part of the world stays as it is when the language model is asked, unless a configuration
turns the model off and it is not asked at all. -/
def Spares {γ : Type} (part : World → γ) (config : Config) : Prop :=
  config.isEnabled = true → ∀ model contents, Keeps part (ask model contents)

section

variable {γ : Type} {part : World → γ}

theorem keeps_ask (ignores : ∀ world service, service.isInstalled = world.service.isInstalled →
      part { world with service } = part world) (model : String) (contents : Json) :
    Keeps part (ask model contents) := by
  intro world
  have asked : ∃ service, ((ask model contents).run.run world).2 = { world with service } ∧
      service.isInstalled = world.service.isInstalled := by
    rw [ask, run_bind_of_ok (run_get world)]
    cases world.service.replies with
    | nil => exact ⟨_, rfl, rfl⟩
    | cons reply rest => cases reply <;> exact ⟨_, rfl, rfl⟩
  rcases asked with ⟨service, after, same⟩
  rw [after]
  exact ignores world service same

theorem spares_of_ignores (ignores : ∀ world service,
      service.isInstalled = world.service.isInstalled → part { world with service } = part world)
    {config : Config} : Spares part config :=
  fun _ => keeps_ask ignores

theorem spares_of_off (part : World → γ) {config : Config}
    (off : config.isEnabled = false) : Spares part config := by
  intro isOn
  rw [off] at isOn
  cases isOn

theorem keeps_askedVector (asking : ∀ model contents, Keeps part (ask model contents))
    (config : Config) (text : Json) : Keeps part (askedVector config text) := by
  unfold askedVector
  apply Keeps.bind
  · apply Keeps.outcome
    apply (asking _ _).bind
    intro said
    exact keeps_ofOutcome part _
  · intro reply
    cases reply with
    | error fault => exact keeps_throw part _
    | ok vector => exact keeps_pure part vector

variable {environment : Environment}
  (spared : ∀ config, Config.load environment = .ok config → Spares part config)

include spared

theorem keeps_embed (texts : List Json) : Keeps part (embed environment texts) := by
  unfold embed
  apply Keeps.bind_ofOutcome
  intro config loaded
  apply (keeps_get part).bind
  intro world
  split
  next asks =>
    rw [Bool.and_eq_true, Bool.and_eq_true] at asks
    exact .mapM (keeps_askedVector (spared config loaded asks.1.1) config) texts
  next => exact .mapM (fun text => keeps_ofOutcome part (ofValue text)) texts

theorem keeps_add (forgets : ∀ world library, library.isInstalled = world.library.isInstalled →
      part { world with library } = part world) (store : Store) (documents : Json) :
    Keeps part (store.add environment documents) := by
  unfold Store.add
  apply (keeps_ofOutcome part _).bind
  intro added
  apply (Keeps.mapM (fun document => keeps_ofOutcome part _) added).bind
  intro texts
  apply (keeps_embed spared texts).bind
  intro vectors
  cases store.index with
  | none => exact keeps_pure part _
  | some index =>
      apply Keeps.bind
      · intro world
        exact forgets world _ rfl
      · intro _
        exact keeps_pure part _

end

/-- Whether the language model is asked for vectors. -/
def asksModel (config : Config) (world : World) : Bool :=
  config.isEnabled && Text.lowerString config.provider = knownProvider && world.service.isInstalled

variable {environment : Environment}

theorem run_embed {config : Config} (loaded : Config.load environment = .ok config)
    (texts : List Json) (world : World) :
    (embed environment texts).run.run world =
      (if asksModel config world then texts.mapM (askedVector config)
        else texts.mapM fun text => ofOutcome (ofValue text)).run.run world := by
  unfold embed
  rw [loaded, run_bind_of_ok (run_ofOutcome (.ok config) world)]
  rfl

theorem load_of_run_embed {texts : List Json} {vectors : List Vector} {world after : World}
    (ran : (embed environment texts).run.run world = (.ok vectors, after)) :
    ∃ config, Config.load environment = .ok config := by
  cases loaded : Config.load environment with
  | error fault =>
      unfold embed at ran
      rw [loaded, run_bind_of_error (run_ofOutcome (.error fault) world)] at ran
      cases ran
  | ok config => exact ⟨config, rfl⟩

/-- The vectors that embedding gives are those of the texts one by one. -/
theorem embeds_of_run {texts : List Json} {vectors : List Vector} {world after : World}
    (ran : (embed environment texts).run.run world = (.ok vectors, after)) :
    Forall₂ (fun text vector => ∃ world after,
      (embed environment [text]).run.run world = (.ok [vector], after)) texts vectors := by
  rcases load_of_run_embed ran with ⟨config, loaded⟩
  rw [run_embed loaded] at ran
  -- Whether the model is asked is the same for each text, because asking installs nothing.
  have installed : ∀ text, Keeps (fun world => asksModel config world)
      (if asksModel config world then askedVector config text
        else ofOutcome (ofValue text)) := by
    intro text
    split
    · apply keeps_askedVector
      apply keeps_ask
      intro world service same
      rw [asksModel, asksModel, same]
    · exact keeps_ofOutcome _ _
  have steps : (if asksModel config world then texts.mapM (askedVector config)
      else texts.mapM fun text => ofOutcome (ofValue text)) =
      texts.mapM fun text => if asksModel config world then askedVector config text
        else ofOutcome (ofValue text) := by
    split <;> rfl
  rw [steps] at ran
  apply (forall₂_of_run_mapM installed ran).imp
  rintro text vector ⟨before, later, same, once⟩
  refine ⟨before, later, ?_⟩
  rw [run_embed loaded, same]
  by_cases asks : asksModel config world = true
  · rw [if_pos asks] at once ⊢
    rw [mapM_cons, run_bind_of_ok once]
    rfl
  · rw [if_neg asks] at once ⊢
    rw [mapM_cons, run_bind_of_ok once]
    rfl

namespace Store

/-! ## Opening -/

variable {world : World} {store : Store} {files : Files} {content : Content}

theorem run_new_of_error {fault : Fault} (failed : Config.load environment = .error fault)
    (path : Option String) (wantsLibrary : Bool) (world : World) :
    (new environment path wantsLibrary).run.run world = (.error fault, world) := by
  unfold new
  rw [failed, run_bind_of_error (run_ofOutcome (.error fault) world)]

theorem run_new_plain {environment : Environment} {config : Config}
    (loaded : Config.load environment = .ok config) {path : Option String}
    {wantsLibrary : Bool} {world : World}
    (without : (wantsLibrary && world.library.isInstalled && config.isEnabled) = false) :
    (new environment path wantsLibrary).run.run world = (.ok ⟨pathOf path, none, [], []⟩, world) := by
  unfold new
  rw [loaded, run_bind_of_ok (run_ofOutcome (.ok config) world),
    run_bind_of_ok (run_get world), without]
  rfl

/-- The index that a store with the search library starts with. -/
def startingIndex (files : Files) (path : String) : Outcome Index :=
  if files.holdsText path then
    (readIndex files path).map fun found : Index =>
      if found.dimension = dimension then found else emptyIndex
  else .ok emptyIndex

theorem run_new_indexed {config : Config} (loaded : Config.load environment = .ok config)
    {path : Option String} {wantsLibrary : Bool}
    (uses : (wantsLibrary && world.library.isInstalled && config.isEnabled) = true) :
    (new environment path wantsLibrary).run.run world =
      ((startingIndex world.files (pathOf path)).map fun index =>
        (⟨pathOf path, some index, [], []⟩ : Store), world) := by
  unfold new
  rw [loaded, run_bind_of_ok (run_ofOutcome (.ok config) world),
    run_bind_of_ok (run_get world), uses, if_pos rfl, startingIndex]
  by_cases there : world.files.holdsText (pathOf path) = true
  · rw [if_pos there, if_pos there]
    have read := run_ofOutcome (readIndex world.files (pathOf path)) world
    cases found : readIndex world.files (pathOf path) with
    | error fault =>
        rw [found] at read
        rw [run_bind_of_error read]
        rfl
    | ok index =>
        rw [found] at read
        rw [run_bind_of_ok read]
        rfl
  · rw [if_neg there, if_neg there]
    rfl

/-- Opening a store changes nothing in the world. -/
theorem keeps_new {γ : Type} (part : World → γ) (environment : Environment) (path : Option String)
    (wantsLibrary : Bool) : Keeps part (new environment path wantsLibrary) := by
  unfold new
  apply (keeps_ofOutcome part _).bind
  intro config
  apply (keeps_get part).bind
  intro world
  split
  · split
    · apply (keeps_ofOutcome part _).bind
      intro found
      exact keeps_pure part _
    · exact keeps_pure part _
  · exact keeps_pure part _

/-! ## Adding documents -/

/-- A store with more documents and their vectors. -/
def grown (store : Store) (added : List Json) (vectors : List Vector) : Store :=
  { store with
    index := store.index.map fun index => { index with total := index.total + vectors.length }
    documents := store.documents ++ added
    embeddings := store.embeddings ++ vectors.map vectorJson }

/-- The vectors that a store tells the search library to add. -/
def callsOf (store : Store) (vectors : List Vector) : List Call :=
  if store.index.isSome then [.add vectors] else []

theorem embeds_of_texts {added texts : List Json} {vectors : List Vector}
    (read : Forall₂ (fun document text => document.element "text" = .ok text) added texts)
    (embedded : Forall₂ (fun text vector => ∃ world after,
      (embed environment [text]).run.run world = (.ok [vector], after)) texts vectors) :
    Forall₂ (Embeds environment) added vectors := by
  induction read generalizing vectors with
  | nil =>
      cases embedded
      exact .nil
  | cons first _ ih =>
      cases embedded with
      | cons ran rest => exact .cons ⟨_, first, ran⟩ (ih rest)

/-- Documents are added together with the embeddings of their texts. -/
theorem of_add {result : Store} {documents : Json} {after : World}
    (ran : (store.add environment documents).run.run world = (.ok result, after)) :
    ∃ added vectors, documents.elements = .ok added ∧
      Forall₂ (Embeds environment) added vectors ∧ result = store.grown added vectors ∧
      after.library.calls = world.library.calls ++ store.callsOf vectors := by
  unfold add at ran
  rcases exists_of_run_bind ran with ⟨added, _, listed, ran⟩
  rw [run_ofOutcome] at listed
  rcases Prod.mk.inj listed with ⟨elements, rfl⟩
  rcases exists_of_run_bind ran with ⟨texts, _, read, ran⟩
  rw [run_mapM_ofOutcome] at read
  rcases Prod.mk.inj read with ⟨found, rfl⟩
  rcases exists_of_run_bind ran with ⟨vectors, between, embedded, ran⟩
  have asked : between.library = world.library :=
    (keeps_embed (fun _ _ => spares_of_ignores fun _ _ _ => rfl) texts).eq embedded
  refine ⟨added, vectors, elements, ?_, ?_⟩
  · exact embeds_of_texts (Outcome.forall₂_of_mapM found) (embeds_of_run embedded)
  · unfold grown callsOf
    cases indexed : store.index with
    | none =>
        simp only [indexed] at ran
        cases ran
        refine ⟨?_, ?_⟩
        · rw [Option.map_none]
        · rw [asked]
          exact (append_nil _).symm
    | some index =>
        simp only [indexed] at ran
        cases ran
        refine ⟨rfl, ?_⟩
        change between.library.calls ++ [.add vectors] = _
        rw [asked]
        rfl

/-- Without the search library and the language model, adding documents depends on nothing but
the documents. -/
theorem run_add_plain {config : Config}
    (loaded : Config.load environment = .ok config) (off : config.isEnabled = false)
    (plain : store.index = none) (documents : Json) (world : World) :
    (store.add environment documents).run.run world =
      ((do
        let added ← documents.elements
        let texts ← added.mapM fun document => document.element "text"
        let vectors ← texts.mapM ofValue
        pure (store.grown added vectors)), world) := by
  unfold add
  apply run_bind_of_outcomes (run_ofOutcome documents.elements world)
  intro added
  apply run_bind_of_outcomes (run_mapM_ofOutcome _ added world)
  intro texts
  have embedded : (embed environment texts).run.run world = (texts.mapM ofValue, world) := by
    have asks : asksModel config world = false := by
      rw [asksModel, off, Bool.false_and, Bool.false_and]
    rw [run_embed loaded, asks]
    exact run_mapM_ofOutcome ofValue texts world
  apply run_bind_of_outcomes embedded
  intro vectors
  rw [grown, plain]
  rfl

/-! ## Saving -/

/-- How a saving ends: before any file is written, between the index and its documents, or with
everything written. -/
inductive Saves (store : Store) (before : Files) : Outcome Unit → Files → Prop
  | refused {fault : Fault} {after : Files} (gains : GainsDirectories before after) :
      Saves store before (.error fault) after
  | torn {fault : Fault} {index : Index} {prepared after : Files}
      (indexed : store.index = some index)
      (ensured : before.ensureDirectories (directoryText store.indexPath) =
        (.ok (), prepared))
      (written : prepared.write (prepared.fromRoot store.indexPath) store.indexPath
        (.document index.toJson) = .ok after) :
      Saves store before (.error fault) after
  | plain {prepared after : Files} (without : store.index = none)
      (ensured : before.ensureDirectories (directoryText store.indexPath) =
        (.ok (), prepared))
      (written : prepared.write (prepared.fromRoot store.indexPath) store.indexPath
        (.records store.records) = .ok after) :
      Saves store before (.ok ()) after
  | indexed {index : Index} {prepared between after : Files} (indexed : store.index = some index)
      (ensured : before.ensureDirectories (directoryText store.indexPath) =
        (.ok (), prepared))
      (written : prepared.write (prepared.fromRoot store.indexPath) store.indexPath
        (.document index.toJson) = .ok between)
      (completed : between.write (between.fromRoot store.documentsPath) store.documentsPath
        (.document (.arr store.documents)) = .ok after) :
      Saves store before (.ok ()) after

/-- What a saving does once the directories are there. -/
def writeOut (store : Store) : Action Unit :=
  match store.index with
  | some index => do
      let world ← get
      writeFile (world.files.fromRoot store.indexPath) store.indexPath
        (.document index.toJson)
      let world ← get
      writeFile (world.files.fromRoot store.documentsPath) store.documentsPath
        (.document (.arr store.documents))
  | none => do
      let world ← get
      writeFile (world.files.fromRoot store.indexPath) store.indexPath
        (.records store.records)

theorem save_eq (store : Store) : store.save = (do
    changeFiles fun files => files.ensureDirectories (directoryText store.indexPath)
    store.writeOut) := rfl

theorem of_writeOut {before : Files}
    (ensured : before.ensureDirectories (directoryText store.indexPath) =
      (.ok (), world.files)) :
    ∃ outcome files, store.writeOut.run.run world = (outcome, { world with files }) ∧
      store.Saves before outcome files := by
  have gains := gains_of_ensureDirectories ensured
  unfold writeOut
  cases indexed : store.index with
  | none =>
      rw [run_bind_of_ok (run_get world)]
      cases written : world.files.write (world.files.fromRoot store.indexPath) store.indexPath
          (.records store.records) with
      | error fault =>
          exact ⟨.error fault, world.files, run_writeFile_of_error written, .refused gains⟩
      | ok after =>
          exact ⟨.ok (), after, run_writeFile_of_ok written,
            .plain indexed ensured written⟩
  | some index =>
      rw [run_bind_of_ok (run_get world)]
      cases written : world.files.write (world.files.fromRoot store.indexPath) store.indexPath
          (.document index.toJson) with
      | error fault =>
          exact ⟨.error fault, world.files,
            run_bind_of_error (run_writeFile_of_error written) _, .refused gains⟩
      | ok between =>
          rw [run_bind_of_ok (run_writeFile_of_ok written),
            run_bind_of_ok (run_get _)]
          cases completed : between.write (between.fromRoot store.documentsPath)
              store.documentsPath (.document (.arr store.documents)) with
          | error fault =>
              exact ⟨.error fault, between, run_writeFile_of_error completed,
                .torn indexed ensured written⟩
          | ok after =>
              exact ⟨.ok (), after, run_writeFile_of_ok completed,
                .indexed indexed ensured written completed⟩

/-- A saving ends in one of these ways, and changes nothing but the files. -/
theorem of_save (store : Store) (world : World) : ∃ outcome files,
    store.save.run.run world = (outcome, { world with files }) ∧
      store.Saves world.files outcome files := by
  rw [save_eq]
  have making := run_changeFiles
    (fun files => files.ensureDirectories (directoryText store.indexPath)) world
  rcases ensured : world.files.ensureDirectories (directoryText store.indexPath) with
    ⟨outcome, prepared⟩
  simp only [ensured] at making
  cases outcome with
  | error fault =>
      exact ⟨_, _, run_bind_of_error making _,
        .refused (gains_of_ensureDirectories ensured)⟩
  | ok done =>
      rw [run_bind_of_ok making]
      exact of_writeOut ensured

theorem run_save_of_ensured {prepared : Files}
    (ensured : world.files.ensureDirectories (directoryText store.indexPath) =
      (.ok (), prepared)) :
    store.save.run.run world = store.writeOut.run.run { world with files := prepared } := by
  have making := run_changeFiles
    (fun files => files.ensureDirectories (directoryText store.indexPath)) world
  simp only [ensured] at making
  rw [save_eq, run_bind_of_ok making]

/-- A store without an index is saved when its directory can be made and its file be written. -/
theorem run_save_plain {store : Store} (without : store.index = none) {world : World}
    {prepared after : Files}
    (ensured : world.files.ensureDirectories (directoryText store.indexPath) =
      (.ok (), prepared))
    (written : prepared.write (prepared.fromRoot store.indexPath) store.indexPath
      (.records store.records) = .ok after) :
    store.save.run.run world = (.ok (), { world with files := after }) := by
  rw [run_save_of_ensured ensured, writeOut, without]
  exact run_writeFile_of_ok written

/-- A store with an index is saved when both of its files can be written. -/
theorem run_save_indexed {store : Store} {index : Index} (indexed : store.index = some index)
    {world : World} {prepared between after : Files}
    (ensured : world.files.ensureDirectories (directoryText store.indexPath) =
      (.ok (), prepared))
    (written : prepared.write (prepared.fromRoot store.indexPath) store.indexPath
      (.document index.toJson) = .ok between)
    (completed : between.write (between.fromRoot store.documentsPath) store.documentsPath
      (.document (.arr store.documents)) = .ok after) :
    store.save.run.run world = (.ok (), { world with files := after }) := by
  rw [run_save_of_ensured ensured, writeOut, indexed]
  rw [run_bind_of_ok (run_get _),
    run_bind_of_ok (run_writeFile_of_ok written),
    run_bind_of_ok (run_get _)]
  exact run_writeFile_of_ok completed

theorem Saves.statText_records {before after : Files} (saves : store.Saves before (.ok ()) after)
    (without : store.index = none) :
    after.statText store.indexPath = .ok (.file (.records store.records)) := by
  cases saves with
  | plain _ ensured written => exact statText_of_saved ensured written
  | indexed indexed =>
      rw [without] at indexed
      cases indexed

/-! ## Loading -/

theorem holdsText_of_statText {path : String} {entry : Entry}
    (found : files.statText path = .ok entry) : files.holdsText path = true := by
  rw [holdsText, found]
  rfl

theorem open?_of_stat {path : Path} (found : files.stat path = .ok (.file content))
    (shown : String) : files.open? path shown = .ok content := by
  rw [open?, found]

theorem stat_of_open? {path : Path} {shown : String}
    (opened : files.open? path shown = .ok content) : files.stat path = .ok (.file content) := by
  rw [open?] at opened
  split at opened
  · next found =>
      cases opened
      exact found
  · cases opened
  · cases opened
  · cases opened

/-- The record of a document with its vector. -/
def recordOf (pair : Json × Json) : Json := .obj [("doc", pair.1), ("embedding", pair.2)]

theorem takeRecords_map_recordOf (store : Store) (pairs : List (Json × Json)) :
    store.takeRecords ((pairs.map recordOf).map .ok) =
      (.ok (), { store with
        documents := store.documents ++ pairs.map Prod.fst
        embeddings := store.embeddings ++ pairs.map Prod.snd }) := by
  induction pairs generalizing store with
  | nil =>
      rw [map_nil, map_nil, takeRecords, map_nil, map_nil, append_nil,
        append_nil]
  | cons pair rest ih =>
      have taken := ih { store with
        documents := store.documents ++ [pair.1]
        embeddings := store.embeddings ++ [pair.2] }
      simp only [append_assoc, singleton_append] at taken
      rw [map_cons, map_cons, map_cons, map_cons, ← taken]
      rfl

/-- From lines that give the records of a store, its documents and vectors are loaded. -/
theorem load_of_lines {saved : Store} (without : store.index = none)
    (even : saved.documents.length = saved.embeddings.length)
    (found : files.statText store.indexPath = .ok (.file content))
    (given : lineValuesIn content = .ok (saved.records.map .ok)) :
    store.load files = (.ok (), { store with
      documents := saved.documents
      embeddings := saved.embeddings }) := by
  have opened := open?_of_stat (statText_eq_file.mp found).2.2 store.indexPath
  have lines : lineValues files store.indexPath = .ok (saved.records.map .ok) := by
    rw [lineValues, opened]
    exact given
  have taken := takeRecords_map_recordOf { store with documents := [], embeddings := [] }
    (saved.documents.zip saved.embeddings)
  rw [map_fst_zip (Nat.le_of_eq even), map_snd_zip (Nat.le_of_eq even.symm)] at taken
  rw [load, if_pos (holdsText_of_statText found)]
  simp only [without, lines]
  rw [without] at taken
  exact taken

/-- Without a file at its path, a store stays as it is or is emptied. -/
theorem load_without_file {loaded : Store} {outcome : Outcome Unit} (without : store.index = none)
    (nowhere : ∀ content, files.statText store.indexPath ≠ .ok (.file content))
    (took : store.load files = (outcome, loaded)) :
    loaded = store ∨ loaded = { store with documents := [], embeddings := [] } := by
  rw [load] at took
  split at took
  · next there =>
      have unread : ∃ fault, lineValues files store.indexPath = .error fault := by
        rw [lineValues]
        cases opened : files.open? (files.fromRoot store.indexPath) store.indexPath with
        | error fault => exact ⟨fault, rfl⟩
        | ok content =>
            exact absurd (statText_of_holdsText there (stat_of_open? opened))
              (nowhere content)
      rcases unread with ⟨fault, unread⟩
      simp only [without, unread] at took
      cases took
      rw [without]
      exact .inr rfl
  · cases took
    exact .inl rfl

end Store
end Retrieval
end CodeQuality
