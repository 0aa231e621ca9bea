import CodeQuality.Proofs.LanguageModel.Asking
import CodeQuality.Proofs.Retrieval.IndexedStores

namespace CodeQuality

open List

namespace Retrieval

/-!
What a search of the library stands for.

A search answers with slots, as many as were asked for.  The slots are filled with
positions of vectors, the closest first.  When there are fewer vectors than slots, the
library fills all it can and marks the others with minus one.  A store looks at the
positions only from above: behind its last document it takes nothing.  Minus one is not
behind the last document, and as a position it counts from the end.
-/

/-- A slot in the answer of a search among so many vectors: a distance, and the position of a
vector if the slot is filled. -/
structure Slot (total : Nat) where
  distance : Number.Binary64
  place? : Option (Fin total)

namespace Slot

variable {total : Nat}

/-- The position that the library gives for a slot. -/
def position (slot : Slot total) : Json :=
  match slot.place? with
  | some place => .int place
  | none => .int (-1)

/-- A document that is found with the distance of the slot. -/
def hit (slot : Slot total) (document : Json) : Store.Hit := ⟨document, .float slot.distance⟩

/-- What a slot stands for among some documents: nothing if it is not filled, or if there is no
document for its vector. -/
def meant? (documents : List Json) (slot : Slot total) : Option Store.Hit :=
  slot.place?.bind fun place => documents[place.val]?.map slot.hit

/-- What a store takes for a slot. -/
def taken? (documents : List Json) (slot : Slot total) : Option Store.Hit :=
  match slot.place? with
  | some place => documents[place.val]?.map slot.hit
  | none => documents.getLast?.map slot.hit

end Slot

/-- The answer of a search, as the library gives it. -/
def answerOf {total : Nat} (slots : List (Slot total)) : Found :=
  ⟨slots.map fun slot => .float slot.distance, slots.map Slot.position⟩

/-- Whether a search has found a vector for each slot. -/
def AllFilled {total : Nat} (slots : List (Slot total)) : Prop :=
  ∀ slot ∈ slots, slot.place?.isSome = true

/-- What the library documents of a search for so many vectors: there is a slot for each of them,
and those are filled for which there is a vector. -/
def AnswersTo {total : Nat} (number : Nat) (slots : List (Slot total)) : Prop :=
  slots.map (fun slot => slot.place?.isSome) =
    (range number).map fun position => decide (position < total)

theorem AnswersTo.allFilled_iff {total number : Nat} {slots : List (Slot total)}
    (answers : AnswersTo number slots) : AllFilled slots ↔ number ≤ total := by
  have listed : AllFilled slots ↔
      ∀ filled ∈ slots.map (fun slot => slot.place?.isSome), filled = true := by
    rw [forall_mem_map]
    rfl
  rw [listed, answers, forall_mem_map]
  simp only [mem_range, decide_eq_true_eq]
  constructor
  · intro each
    by_contra more
    exact Nat.lt_irrefl total (each total (Nat.lt_of_not_le more))
  · intro enough position asked
    exact Nat.lt_of_lt_of_le asked enough

namespace Store

/-! ## One slot -/

/-- Minus one as a position means the last item. -/
theorem itemAt_minus_one {items : List Json} {item : Json} (last : items.getLast? = some item) :
    itemAt items (-1) = .ok item := by
  have present : 0 < items.length := by
    rcases items with _ | ⟨first, rest⟩
    · cases last
    · exact Nat.succ_pos _
  have place : ((-1 : Int) + (items.length : Nat)).toNat = items.length - 1 := by omega
  have inside : ¬ (-1 : Int) + (items.length : Nat) < 0 := by omega
  rw [getLast?_eq_getElem?] at last
  simp only [itemAt, if_pos (show (-1 : Int) < 0 by decide), if_neg inside, place, last]

/-- What a store gives for one slot.  Only an unfilled slot in a store without documents is at
fault. -/
def fetch {total : Nat} (documents : List Json) (slot : Slot total) : Outcome (Option Hit) :=
  if documents = [] ∧ slot.place?.isSome = false then .error .outOfRange
  else .ok (slot.taken? documents)

variable {total : Nat} {documents : List Json} {slots : List (Slot total)}

theorem foundHits_answerOf (documents : List Json) (slots : List (Slot total)) :
    foundHits documents (answerOf slots) =
      (slots.mapM (fetch documents)).map fun hits => hits.filterMap id := by
  have paired : (answerOf slots).distances.zip (answerOf slots).positions =
      slots.map fun slot => (Json.float slot.distance, slot.position) := zip_map' ..
  rw [foundHits, paired, mapM_map]
  congr 2
  funext slot
  rcases slot with ⟨distance, _ | place⟩
  · -- An unfilled slot is never behind the last document.
    change (if (-1 : Int) < documents.length then
      itemAt documents (-1) >>= fun document => .ok (some ⟨document, .float distance⟩)
      else .ok none) = fetch documents ⟨distance, none⟩
    rw [if_pos (by omega)]
    cases last : documents.getLast? with
    | none =>
        rw [getLast?_eq_none_iff] at last
        subst last
        rfl
    | some document =>
        have present : documents ≠ [] := by
          rintro rfl
          cases last
        rw [itemAt_minus_one last, fetch, if_neg fun both => present both.1, Slot.taken?, last]
        rfl
  · change (if (place.val : Int) < documents.length then
      itemAt documents place.val >>= fun document => .ok (some ⟨document, .float distance⟩)
      else .ok none) = fetch documents ⟨distance, some place⟩
    have fetched : fetch documents ⟨distance, some place⟩ =
        .ok (documents[place.val]?.map fun document => ⟨document, .float distance⟩) :=
      if_neg fun both => Bool.noConfusion both.2
    rw [itemAt_natCast, fetched]
    by_cases inside : place.val < documents.length
    · rw [if_pos (Int.ofNat_lt.mpr inside), getElem?_eq_getElem inside]
      rfl
    · rw [if_neg (by omega), getElem?_eq_none (by omega)]
      rfl

/-! ## Whole answers -/

theorem fetch_eq_ok (able : documents ≠ [] ∨ AllFilled slots) :
    slots.mapM (fetch documents) = .ok (slots.map (Slot.taken? documents)) := by
  apply Outcome.mapM_eq_ok
  intro slot member
  rw [fetch, if_neg]
  rintro ⟨empty, unfilled⟩
  rcases able with present | filled
  · exact present empty
  · rw [filled slot member] at unfilled
    cases unfilled

/-- Without documents, the first slot that is not filled is at fault. -/
theorem fetch_eq_error (unfilled : ¬ AllFilled slots) :
    slots.mapM (fetch []) = .error .outOfRange := by
  induction slots with
  | nil => exact absurd (fun _ member => absurd member not_mem_nil) unfilled
  | cons slot slots ih =>
      rw [mapM_cons]
      by_cases filled : slot.place?.isSome = true
      · have others : ¬ AllFilled slots := fun all =>
          unfilled (forall_mem_cons.mpr ⟨filled, all⟩)
        rw [ih others, fetch, if_neg fun both => by rw [filled] at both; cases both.2]
        rfl
      · rw [fetch, if_pos ⟨rfl, Bool.eq_false_iff.mpr filled⟩]
        rfl

/-- A store takes one document too many for each slot that is not filled. -/
theorem length_taken (present : documents ≠ []) (slots : List (Slot total)) :
    (slots.filterMap (Slot.taken? documents)).length =
      (slots.filterMap (Slot.meant? documents)).length +
        slots.countP fun slot => !slot.place?.isSome := by
  induction slots with
  | nil => rfl
  | cons slot slots ih =>
      rcases slot with ⟨distance, _ | place⟩
      · have last := getLast?_eq_some_getLast present
        simp [filterMap_cons, Slot.taken?, Slot.meant?, last, ih]
        omega
      · cases found : documents[place.val]? with
        | none => simp [Slot.taken?, Slot.meant?, found, ih]
        | some document =>
            simp [Slot.taken?, Slot.meant?, found, ih]
            omega

theorem taken_eq_meant_iff (present : documents ≠ []) (slots : List (Slot total)) :
    slots.filterMap (Slot.taken? documents) = slots.filterMap (Slot.meant? documents) ↔
      AllFilled slots := by
  constructor
  · intro same slot member
    have counted := length_taken present slots
    rw [same] at counted
    have none : slots.countP (fun slot => !slot.place?.isSome) = 0 := by omega
    have filled := countP_eq_zero.mp none slot member
    simpa [Option.isSome_iff_ne_none] using filled
  · intro filled
    apply filterMap_congr
    intro slot member
    rcases slot with ⟨distance, _ | place⟩
    · cases filled _ member
    · rfl

theorem foundHits_of_able (able : documents ≠ [] ∨ AllFilled slots) :
    foundHits documents (answerOf slots) = .ok (slots.filterMap (Slot.taken? documents)) := by
  rw [foundHits_answerOf, fetch_eq_ok able, Except.map, filterMap_map]
  rfl

theorem foundHits_of_unable (unfilled : ¬ AllFilled slots) :
    foundHits [] (answerOf slots) = .error .outOfRange := by
  rw [foundHits_answerOf, fetch_eq_error unfilled]
  rfl

theorem foundHits_eq_meant_iff (documents : List Json) (slots : List (Slot total)) :
    foundHits documents (answerOf slots) = .ok (slots.filterMap (Slot.meant? documents)) ↔
      AllFilled slots := by
  by_cases present : documents = []
  · subst present
    by_cases filled : AllFilled slots
    · -- Without documents nothing is meant, and nothing is taken.
      rw [foundHits_of_able (Or.inr filled)]
      refine ⟨fun _ => filled, fun _ => congrArg Except.ok ?_⟩
      apply filterMap_congr
      intro slot member
      rcases slot with ⟨distance, _ | place⟩ <;> rfl
    · rw [foundHits_of_unable filled]
      constructor
      · intro same
        cases same
      · intro all
        exact absurd all filled
  · rw [foundHits_of_able (Or.inl present), Except.ok.injEq, taken_eq_meant_iff present]

/-! ## Questions -/

theorem run_query_indexed {environment : Environment} {store : Store} {index : Index}
    (indexed : store.index = some index) (present : 0 < index.total) {question count : Json}
    {world between : World} {vectors : List Vector}
    (embedded : (embed environment [question]).run.run world = (.ok vectors, between))
    {found : Found} {later : List Found} (searched : world.library.searches = found :: later) :
    ((store.query environment question count).run.run world).1 =
      foundHits store.documents found := by
  have same : between.library = world.library :=
    (keeps_embed (fun _ _ => spares_of_ignores fun _ _ _ => rfl) [question]).eq embedded
  rw [← same] at searched
  have answered : ∃ after, (Action.search [vectors.headD []] count).run.run between =
      (.ok found, after) := by
    rw [Action.search, Action.run_bind_of_ok (Action.run_get between), searched]
    exact ⟨_, rfl⟩
  rcases answered with ⟨after, answered⟩
  rw [query, Action.run_bind_of_ok embedded, indexed]
  simp only [if_pos present]
  rw [Action.run_bind_of_ok answered, Action.run_ofOutcome]

/-- A question to a store with the search library is answered with what the search stands for
exactly when all slots are filled, and so when no more is asked for than there are vectors.
Otherwise the last document is taken for each slot that is not filled, and there is a fault if
there is none. -/
theorem query_answers_as_meant_iff {environment : Environment} {store : Store} {width : Int}
    {total : Nat} (indexed : store.index = some ⟨width, total⟩) (present : 0 < total)
    {question count : Json} {world between : World} {vectors : List Vector}
    (embedded : (embed environment [question]).run.run world = (.ok vectors, between))
    {slots : List (Slot total)} {later : List Found}
    (searched : world.library.searches = answerOf slots :: later) :
    let outcome := ((store.query environment question count).run.run world).1
    let meant := slots.filterMap (Slot.meant? store.documents)
    (outcome = .ok meant ↔ AllFilled slots) ∧
      (∀ number : Nat, count = .int number → AnswersTo number slots →
        (outcome = .ok meant ↔ number ≤ total)) ∧
      (store.documents ≠ [] →
        outcome = .ok (slots.filterMap (Slot.taken? store.documents))) ∧
      (store.documents = [] → ¬ AllFilled slots → outcome = .error .outOfRange) := by
  have ran := @run_query_indexed environment store _ indexed (Int.natCast_pos.mpr present) question
    count world between vectors embedded _ later searched
  simp only [ran]
  have right := foundHits_eq_meant_iff store.documents slots
  refine ⟨right, ?_, ?_, ?_⟩
  · intro number _ answers
    exact right.trans answers.allFilled_iff
  · intro some
    exact foundHits_of_able (Or.inl some)
  · intro none unfilled
    rw [none]
    exact foundHits_of_unable unfilled

/-! ## One document in an index -/

/-- A world with the search library and without the language model's service, in which a search is
going to find something. -/
def searchingWorld (found : Found) : World :=
  { emptyWorld true with library := ⟨true, [found], []⟩ }

theorem run_embed_searchingWorld (found : Found) (text : String) :
    (embed modelOn [.str text]).run.run (searchingWorld found) =
      (.ok [ofText text], searchingWorld found) := by
  rcases exists_config with ⟨config, loaded, -⟩
  have silent : asksModel config (searchingWorld found) = false := Bool.and_false _
  rw [run_embed loaded, silent]
  rfl

/-- A store that was opened with two vectors in its index and has got one document. -/
def shortStore : Store := { alphaStore with index := some ⟨dimension, 2⟩ }

/-- Both vectors are found, the one without a document first. -/
def bothFound : List (Slot 2) := [⟨⟨0⟩, some 1⟩, ⟨⟨0x3ff0000000000000⟩, some 0⟩]

/-- The vector without a document is left out, and the document of the other is found. -/
theorem query_bothFound :
    ((shortStore.query modelOn (.str "which?") (.int 2)).run.run
      (searchingWorld (answerOf bothFound))).1 =
      .ok [⟨plainDocument "alpha", .float ⟨0x3ff0000000000000⟩⟩] := by
  have answered := @query_answers_as_meant_iff modelOn shortStore _ 2 rfl (by decide)
    (.str "which?") (.int 2) _ _ _ (run_embed_searchingWorld _ "which?") bothFound [] rfl
  exact (answered.2.1 2 rfl rfl).mpr (by decide)

/-- Two vectors are asked for where there is one. -/
def halfFound : List (Slot 1) := [⟨⟨0⟩, some 0⟩, ⟨⟨0x47efffffe0000000⟩, none⟩]

/-- The one document is found a second time in the slot that is not filled, and without the
document there is a fault. -/
theorem unfilled_slot_answered :
    AnswersTo 2 halfFound ∧
      halfFound.filterMap (Slot.meant? alphaStore.documents) =
        [⟨plainDocument "alpha", .float ⟨0⟩⟩] ∧
      ((alphaStore.query modelOn (.str "alpha") (.int 2)).run.run
        (searchingWorld (answerOf halfFound))).1 =
        .ok [⟨plainDocument "alpha", .float ⟨0⟩⟩,
          ⟨plainDocument "alpha", .float ⟨0x47efffffe0000000⟩⟩] ∧
      (({ alphaStore with documents := [] }.query modelOn (.str "alpha") (.int 2)).run.run
        (searchingWorld (answerOf halfFound))).1 = .error .outOfRange := by
  have embedded := run_embed_searchingWorld (answerOf halfFound) "alpha"
  have unfilled : ¬ AllFilled halfFound := by
    intro filled
    cases filled ⟨⟨0x47efffffe0000000⟩, none⟩ (mem_cons_of_mem _ mem_cons_self)
  refine ⟨rfl, rfl, ?_, ?_⟩
  · exact (run_query_indexed rfl (by decide) embedded rfl).trans
      (foundHits_of_able (Or.inl (cons_ne_nil _ _)))
  · exact (run_query_indexed rfl (by decide) embedded rfl).trans (foundHits_of_unable unfilled)

end Store

end Retrieval
end CodeQuality
