import CodeQuality.Proofs.LanguageModel.Asking
import CodeQuality.Proofs.Ranking

namespace CodeQuality

open CodeQuality.Action

namespace Retrieval

/-!
Passages that can be retrieved.

Once a question has a vector, a store compares it with the vectors of its documents, or
lets the search library do so.  Comparing vectors does not fail, whatever numbers they
hold.  So a question to a store of texts fails for one of two reasons only: there is no
vector for it, or the search library has failed.
-/

namespace Store

/-! ## Comparing vectors -/

/-- What sums of floating-point numbers are: a floating-point number, or nought for none. -/
def IsSum (value : Json) : Prop := value = .int 0 ∨ ∃ number, value = .float number

theorem nearestFloat_zero : ∃ nought, Json.nearestFloat 0 = .ok nought := ⟨_, rfl⟩

theorem plus_float {sum : Json} (isSum : IsSum sum) (number : Number.Binary64) :
    ∃ next, Json.plus sum (.float number) = .ok next ∧ IsSum next := by
  rcases isSum with rfl | ⟨before, rfl⟩
  · rcases nearestFloat_zero with ⟨nought, nearest⟩
    refine ⟨.float (nought + number), ?_, Or.inr ⟨_, rfl⟩⟩
    rw [Json.plus, Json.operands?, Json.wholeNumber?]
    · simp only [nearest]
      rfl
    · exact fun _ same => by cases same
  · exact ⟨.float (before + number), rfl, Or.inr ⟨_, rfl⟩⟩

/-- Whether all of some values are floating-point numbers. -/
def AllFloats (values : List Json) : Prop := ∀ value ∈ values, ∃ number, value = .float number

theorem allFloats_map (vector : Vector) : AllFloats (vector.map .float) := by
  intro value member
  rcases List.mem_map.mp member with ⟨number, _, same⟩
  exact ⟨number, same.symm⟩

theorem total_of_allFloats {values : List Json} (floats : AllFloats values) :
    ∃ sum, total values = .ok sum ∧ IsSum sum := by
  have from_start : ∀ start, IsSum start →
      ∃ sum, values.foldlM Json.plus start = .ok sum ∧ IsSum sum := by
    induction values with
    | nil => exact fun start isSum => ⟨start, rfl, isSum⟩
    | cons value values ih =>
        intro start isSum
        rcases floats value List.mem_cons_self with ⟨number, rfl⟩
        rcases plus_float isSum number with ⟨next, added, isNext⟩
        rcases ih (fun other member => floats other (List.mem_cons_of_mem _ member)) next isNext
          with ⟨sum, rest, isRest⟩
        refine ⟨sum, ?_, isRest⟩
        rw [List.foldlM_cons, added]
        exact rest
  exact from_start (.int 0) (Or.inl rfl)

theorem asFloat_sum {sum : Json} (isSum : IsSum sum) : ∃ number, asFloat sum = .ok number := by
  rcases isSum with rfl | ⟨number, rfl⟩
  · exact nearestFloat_zero
  · exact ⟨number, rfl⟩

/-- Numbers that are made step by step from floating-point ones have a sum, as a floating-point
number. -/
theorem exists_total {α : Type} {items : List α} {step : α → Outcome Json}
    (each : ∀ item ∈ items, ∃ value, step item = .ok value ∧ ∃ number, value = .float number) :
    ∃ values sum number, items.mapM step = .ok values ∧ total values = .ok sum ∧
      asFloat sum = .ok number := by
  rcases Outcome.exists_mapM_eq_ok each with ⟨values, made, floats⟩
  rcases total_of_allFloats floats with ⟨sum, summed, isSum⟩
  rcases asFloat_sum isSum with ⟨number, asked⟩
  exact ⟨values, sum, number, made, summed, asked⟩

/-- How close two vectors are can always be computed. -/
theorem similarity_vectorJson (question vector : Vector) :
    ∃ closeness, similarity question (vectorJson vector) = .ok closeness := by
  have squares : ∀ own : Vector, ∀ value ∈ own.map Json.float,
      ∃ square, Json.product value value = .ok square ∧ ∃ number, square = .float number := by
    intro own value member
    rcases allFloats_map own value member with ⟨number, rfl⟩
    exact ⟨_, rfl, _, rfl⟩
  have products : ∀ pair ∈ (question.map Json.float).zip (vector.map Json.float),
      ∃ value, Json.product pair.1 pair.2 = .ok value ∧ ∃ number, value = .float number := by
    intro pair member
    rcases List.of_mem_zip member with ⟨left, right⟩
    rcases allFloats_map question _ left with ⟨first, firstFloat⟩
    rcases allFloats_map vector _ right with ⟨second, secondFloat⟩
    rw [firstFloat, secondFloat]
    exact ⟨_, rfl, _, rfl⟩
  rcases exists_total products with ⟨_, _, _, dotMade, dotSum, dotFloat⟩
  rcases exists_total (squares question) with ⟨_, _, _, ownMade, ownSum, ownFloat⟩
  rcases exists_total (squares vector) with ⟨_, _, _, otherMade, otherSum, otherFloat⟩
  rw [similarity, vectorJson, Json.elements]
  simp only [bind, Except.bind, dotMade, dotSum, dotFloat, ownMade, ownSum, ownFloat, otherMade,
    otherSum, otherFloat]
  exact ⟨_, rfl⟩

/-! ## Stores of passages -/

/-- A document that can be passed on when it is found: a record with a text, and a record about the
text. -/
def IsPassage (document : Json) : Prop :=
  ∃ members text about, document = .obj members ∧
    Json.lookup? "text" members = some (.str text) ∧
    Json.lookup? "meta" members = some (.obj about)

/-- A store of passages and of vectors. -/
structure IsFurnished (store : Store) : Prop where
  documents : ∀ document ∈ store.documents, IsPassage document
  embeddings : ∀ embedding ∈ store.embeddings, ∃ vector, embedding = vectorJson vector

/-- The documents closest to a vector, when all vectors are compared. -/
def scan (store : Store) (vector : Vector) (count : Json) : Outcome (List Hit) := do
  let scored ← (store.documents.zip store.embeddings).mapM fun (document, embedding) => do
    pure (⟨document, .float (← similarity vector embedding)⟩ : Hit)
  leadingBy (← Sorting.descendingBy (·.score) scored) count

/-- Hits on documents of a store. -/
def HitsOf (store : Store) (hits : List Hit) : Prop :=
  ∀ hit ∈ hits, hit.document ∈ store.documents

/-- A hit with a floating-point number as its score. -/
def Hit.IsScored (hit : Hit) : Prop := ∃ number, hit.score = .float number

theorem descendingBy_score {hits : List Hit} (floats : ∀ hit ∈ hits, hit.IsScored) :
    ∃ sorted, Sorting.descendingBy (·.score) hits = .ok sorted ∧ sorted.Perm hits := by
  have compared : ∀ first second : Hit, first.IsScored → second.IsScored → ∃ answer,
      Json.isBefore first.score second.score = .ok answer ∧ (0 < 0 → answer = true) ∧
        (0 < 0 → answer = false) := by
    rintro first second ⟨left, firstFloat⟩ ⟨right, secondFloat⟩
    rw [firstFloat, secondFloat]
    exact ⟨_, rfl, fun lower => absurd lower (Nat.lt_irrefl 0),
      fun higher => absurd higher (Nat.lt_irrefl 0)⟩
  -- one level for all hits, since it matters only that no comparison fails
  rcases @Sorting.descending_levels Hit _ (fun _ => 0) Hit.IsScored compared hits floats with
    ⟨sorted, ran, perm, _⟩
  exact ⟨sorted, ran, perm⟩

variable {store : Store}

/-- Comparing all vectors of a store does not fail. -/
theorem scan_eq_ok (furnished : store.IsFurnished) (vector : Vector) (count : Int) :
    ∃ hits, store.scan vector (.int count) = .ok hits ∧ store.HitsOf hits := by
  have each : ∀ pair ∈ store.documents.zip store.embeddings,
      ∃ hit : Hit, (do pure ⟨pair.1, .float (← similarity vector pair.2)⟩ : Outcome Hit) =
        .ok hit ∧ hit.document ∈ store.documents ∧ hit.IsScored := by
    intro pair member
    rcases List.of_mem_zip member with ⟨document, embedding⟩
    rcases furnished.embeddings _ embedding with ⟨own, same⟩
    rcases similarity_vectorJson vector own with ⟨closeness, compared⟩
    rw [same, compared]
    exact ⟨_, rfl, document, _, rfl⟩
  rcases Outcome.exists_mapM_eq_ok each with ⟨scored, made, known⟩
  rcases descendingBy_score fun hit member => (known hit member).2 with ⟨sorted, ran, perm⟩
  refine ⟨Text.upTo sorted count, ?_, ?_⟩
  · rw [scan]
    simp only [bind, Except.bind] at made ⊢
    rw [made]
    simp only [ran]
    rfl
  · intro hit member
    exact (known hit (perm.mem_iff.mp (List.mem_of_mem_take member))).1

/-! ## Questions -/

theorem mem_of_itemAt {items : List Json} {position : Int} {item : Json}
    (found : itemAt items position = .ok item) : item ∈ items := by
  rw [itemAt] at found
  generalize (if position < 0 then position + items.length else position) = place at found
  split at found
  · cases found
  · split at found
    · next member =>
        cases found
        exact List.mem_of_getElem? member
    · cases found

theorem hitsOf_foundHits {found : Found} {hits : List Hit}
    (taken : foundHits store.documents found = .ok hits) : store.HitsOf hits := by
  rcases Outcome.exists_of_bind taken with ⟨slots, read, rest⟩
  cases rest
  intro hit member
  rcases List.mem_filterMap.mp member with ⟨slot, inside, rfl⟩
  rcases Outcome.exists_of_mem_mapM read inside with ⟨⟨distance, position⟩, _, gave⟩
  simp only at gave
  split at gave
  · split at gave
    · rcases Outcome.exists_of_bind gave with ⟨document, fetched, gave⟩
      rcases Outcome.exists_of_bind gave with ⟨number, _, gave⟩
      cases gave
      exact mem_of_itemAt fetched
    · cases gave
  · cases gave

/-- Whether a store leaves a question to the search library. -/
def usesLibrary (store : Store) : Bool := store.index.any fun index => 0 < index.total

/-- What the next search gives. -/
def nextFound (library : Library) : Outcome Found :=
  match library.searches with
  | [] => .error (.runtime "no more searches")
  | found :: _ => .ok found

theorem run_search (vectors : List Vector) (count : Json) (world : World) :
    ∃ after, (search vectors count).run.run world = (nextFound world.library, after) ∧
      after.service = world.service := by
  refine ⟨((search vectors count).run.run world).2, Prod.ext ?_ rfl,
    keeps_search (fun _ _ => rfl) vectors count world⟩
  rw [search, run_bind_of_ok (run_get world), nextFound]
  cases world.library.searches with
  | nil => rfl
  | cons found later => rfl

/-- What a store finds for a vector, with the search library or without it. -/
def hitsFor (store : Store) (library : Library) (vector : Vector) (count : Json) :
    Outcome (List Hit) :=
  if store.usesLibrary then nextFound library >>= foundHits store.documents
  else store.scan vector count

theorem run_query_of_ok {environment : Environment} {store : Store} {question count : Json}
    {world between : World} {vectors : List Vector}
    (embedded : (embed environment [question]).run.run world = (.ok vectors, between)) :
    ∃ after, (store.query environment question count).run.run world =
        (store.hitsFor world.library (vectors.headD []) count, after) ∧
      after.service = between.service := by
  have same : between.library = world.library :=
    (keeps_embed (fun _ _ => spares_of_ignores fun _ _ _ => rfl) [question]).eq embedded
  rw [query, run_bind_of_ok embedded, hitsFor, usesLibrary, ← same]
  cases store.index with
  | none => exact ⟨between, run_ofOutcome _ between, rfl⟩
  | some index =>
      rw [Option.any_some]
      by_cases present : 0 < index.total
      · rw [if_pos (decide_eq_true present)]
        simp only [if_pos present]
        rcases run_search [vectors.headD []] count between with ⟨after, searched, kept⟩
        refine ⟨after, ?_, kept⟩
        cases answered : nextFound between.library with
        | error fault =>
            rw [answered] at searched
            exact run_bind_of_error searched _
        | ok found =>
            rw [answered] at searched
            rw [run_bind_of_ok searched, run_ofOutcome]
            rfl
      · rw [if_neg (Bool.eq_false_iff.mp (decide_eq_false present))]
        simp only [if_neg present]
        exact ⟨between, run_ofOutcome _ between, rfl⟩

theorem run_retrieve_of_unembedded {environment : Environment} {question count : Json}
    {world after : World} {fault : Fault}
    (failed : (embed environment [question]).run.run world = (.error fault, after)) :
    (store.retrieve environment question count).run.run world = (.error fault, after) := by
  have asked : (store.query environment question count).run.run world = (.error fault, after) :=
    run_bind_of_error failed _
  exact run_bind_of_error asked _

/-- Whether the search library, if it is used, finds documents of the store. -/
def SearchSucceeds (store : Store) (library : Library) : Prop :=
  store.usesLibrary = true →
    ∃ found hits, nextFound library = .ok found ∧ foundHits store.documents found = .ok hits

section

variable (furnished : store.IsFurnished)

include furnished

/-- Apart from the search library, nothing can fail in looking for a vector. -/
theorem hitsFor_eq_ok_iff (library : Library) (vector : Vector) (count : Int) :
    (∃ hits, store.hitsFor library vector (.int count) = .ok hits) ↔
      store.SearchSucceeds library := by
  rw [hitsFor, SearchSucceeds]
  cases store.usesLibrary with
  | false =>
      rcases scan_eq_ok furnished vector count with ⟨hits, scanned, _⟩
      exact ⟨fun _ used => Bool.noConfusion used, fun _ => ⟨hits, scanned⟩⟩
  | true =>
      rw [if_pos rfl]
      constructor
      · rintro ⟨hits, taken⟩ _
        rcases Outcome.exists_of_bind taken with ⟨found, next, taken⟩
        exact ⟨found, hits, next, taken⟩
      · intro succeeds
        rcases succeeds rfl with ⟨found, hits, next, taken⟩
        refine ⟨hits, ?_⟩
        rw [next]
        exact taken

theorem hitsOf_hitsFor {library : Library} {vector : Vector} {count : Int} {hits : List Hit}
    (taken : store.hitsFor library vector (.int count) = .ok hits) : store.HitsOf hits := by
  rw [hitsFor] at taken
  split at taken
  · rcases Outcome.exists_of_bind taken with ⟨found, _, taken⟩
    exact hitsOf_foundHits taken
  · rcases scan_eq_ok furnished vector count with ⟨own, scanned, hitsOf⟩
    cases scanned.symm.trans taken
    exact hitsOf

/-- A passage with a text and a record about it. -/
def Passage.IsWhole (passage : Passage) : Prop :=
  ∃ text about, passage.text = .str text ∧ passage.about = .obj about

/-- What is found in a store of passages can be passed on. -/
theorem exists_passages {hits : List Hit} (hitsOf : store.HitsOf hits) :
    ∃ passages, (hits.mapM fun hit => do
        pure (⟨← hit.document.element "text", ← hit.document.element "meta", hit.score⟩ :
          Passage) : Outcome (List Passage)) = .ok passages ∧
      ∀ passage ∈ passages, passage.IsWhole := by
  apply Outcome.exists_mapM_eq_ok
  intro hit member
  rcases furnished.documents _ (hitsOf hit member) with ⟨members, text, about, same, told, known⟩
  rw [same]
  simp only [Json.element, told, known]
  exact ⟨_, rfl, _, _, rfl, rfl⟩

theorem run_retrieve_of_ok {environment : Environment} {question : Json} {count : Int}
    {world between : World} {vectors : List Vector}
    (embedded : (embed environment [question]).run.run world = (.ok vectors, between))
    (succeeds : store.SearchSucceeds world.library) :
    ∃ passages after, (store.retrieve environment question (.int count)).run.run world =
        (.ok passages, after) ∧
      (∀ passage ∈ passages, passage.IsWhole) ∧ after.service = between.service := by
  rcases (hitsFor_eq_ok_iff furnished world.library (vectors.headD []) count).mpr succeeds with
    ⟨hits, taken⟩
  rcases @run_query_of_ok environment store question (.int count) _ _ _ embedded with
    ⟨after, ran, kept⟩
  rcases exists_passages furnished (hitsOf_hitsFor furnished taken) with ⟨passages, made, whole⟩
  rw [taken] at ran
  refine ⟨passages, after, ?_, whole, kept⟩
  rw [retrieve, run_bind_of_ok ran, run_mapM_ofOutcome, made]

theorem run_retrieve_of_error {environment : Environment} {question : Json} {count : Int}
    {world between : World} {vectors : List Vector}
    (embedded : (embed environment [question]).run.run world = (.ok vectors, between))
    (fails : ¬ store.SearchSucceeds world.library) :
    ∃ fault after, (store.retrieve environment question (.int count)).run.run world =
      (.error fault, after) := by
  rcases @run_query_of_ok environment store question (.int count) _ _ _ embedded with
    ⟨after, ran, _⟩
  cases taken : store.hitsFor world.library (vectors.headD []) (.int count) with
  | error fault =>
      rw [taken] at ran
      exact ⟨fault, after, run_bind_of_error ran _⟩
  | ok hits =>
      exact absurd ((hitsFor_eq_ok_iff furnished world.library _ count).mp ⟨hits, taken⟩) fails

end

end Store
end Retrieval
end CodeQuality
