import CodeQuality.Proofs.Survey.Coverage

namespace CodeQuality
namespace Survey
namespace Script

open CodeQuality.Script List

/-!
Functions that stand in several places.

Every function of every script has a digest, unless nothing is left of its normal form.
The digests come file by file in the order of the walk, and the places of each are
collected on the way.  What comes of it can be said without the collecting: there is one
finding for each digest that occurs at least twice, in order of first occurrence, and it
lists the files of all occurrences.
-/

/-- A digest occurs in a file. -/
structure Occurrence where
  digest : String
  file : String

/-- The occurrences of digests in files whose digests are listed, file by file. -/
def occurrencesIn (reports : List (String × FileReport)) : List Occurrence :=
  reports.flatMap fun entry => entry.2.digests.map fun digest => ⟨digest, entry.1⟩

/-- The files in which a digest occurs, once for each occurrence. -/
def placesOf (found : List Occurrence) (digest : String) : List String :=
  (found.filter fun occurrence => occurrence.digest = digest).map Occurrence.file

/-- The digests in order of first occurrence. -/
def digestsOf (found : List Occurrence) : List String :=
  (found.map Occurrence.digest).eraseDups

/-- The digests that occur at least twice, in order of first occurrence. -/
def repeatedIn (found : List Occurrence) : List String :=
  (digestsOf found).filter fun digest => 2 ≤ (found.map Occurrence.digest).count digest

/-! ## Collecting places -/

variable {found : List Occurrence} {digest : String}

theorem mem_digestsOf :
    digest ∈ digestsOf found ↔ digest ∈ found.map Occurrence.digest := mem_eraseDups

theorem nodup_digestsOf (found : List Occurrence) : (digestsOf found).Nodup :=
  Analysis.nodup_eraseDups _

theorem placesOf_concat (found : List Occurrence) (added : Occurrence) (digest : String) :
    placesOf (found ++ [added]) digest =
      if added.digest = digest then placesOf found digest ++ [added.file]
      else placesOf found digest := by
  by_cases same : added.digest = digest
  · simp [placesOf, same]
  · simp [placesOf, same]

theorem placesOf_eq_nil (absent : digest ∉ found.map Occurrence.digest) :
    placesOf found digest = [] := by
  rw [placesOf, map_eq_nil_iff, filter_eq_nil_iff]
  intro occurrence member same
  exact absent (of_decide_eq_true same ▸ mem_map_of_mem member)

theorem length_placesOf (found : List Occurrence) (digest : String) :
    (placesOf found digest).length = (found.map Occurrence.digest).count digest := by
  rw [placesOf, length_map, ← countP_eq_length_filter, count, countP_map]
  apply countP_congr
  intro occurrence _
  simp

theorem mem_repeatedIn :
    digest ∈ repeatedIn found ↔ 2 ≤ (found.map Occurrence.digest).count digest := by
  rw [repeatedIn, mem_filter, mem_digestsOf, decide_eq_true_eq, and_iff_right_iff_imp]
  intro several
  exact count_pos_iff.mp (Nat.lt_of_lt_of_le Nat.zero_lt_two several)

/-- A place is added to those of its digest and to no others. -/
theorem addPlace_of_mem {file : String} {digests : List String} {places : String → List String}
    (distinct : digests.Nodup) (member : digest ∈ digests) :
    addPlace digest file (digests.map fun own => (own, places own)) =
      digests.map fun own =>
        (own, if digest = own then places own ++ [file] else places own) := by
  induction digests with
  | nil => cases member
  | cons own rest ih =>
      rw [nodup_cons] at distinct
      rw [map_cons, addPlace, map_cons]
      by_cases same : own = digest
      · subst same
        rw [if_pos rfl, if_pos rfl, cons.injEq]
        refine ⟨rfl, map_congr_left ?_⟩
        intro other inside
        rw [if_neg]
        rintro rfl
        exact distinct.1 inside
      · rw [if_neg same, if_neg (Ne.symm same),
          ih distinct.2 ((mem_cons.mp member).resolve_left (Ne.symm same))]

theorem addPlace_of_notMem {file : String} {groups : List (String × List String)}
    (absent : digest ∉ groups.map Prod.fst) :
    addPlace digest file groups = groups ++ [(digest, [file])] := by
  induction groups with
  | nil => rfl
  | cons group rest ih =>
      rw [map_cons, mem_cons, not_or] at absent
      rw [addPlace, if_neg (Ne.symm absent.1), ih absent.2, cons_append]

/-- What has been collected from some occurrences: the places of each digest. -/
def grouped (found : List Occurrence) : List (String × List String) :=
  (digestsOf found).map fun digest => (digest, placesOf found digest)

theorem grouped_concat (found : List Occurrence) (added : Occurrence) :
    grouped (found ++ [added]) = addPlace added.digest added.file (grouped found) := by
  have digests : digestsOf (found ++ [added]) =
      if added.digest ∈ found.map Occurrence.digest then digestsOf found
      else digestsOf found ++ [added.digest] := by
    rw [digestsOf, map_append, map_singleton, Analysis.eraseDups_concat]
    rfl
  rw [grouped, digests]
  simp only [placesOf_concat]
  by_cases known : added.digest ∈ found.map Occurrence.digest
  · rw [if_pos known, grouped, addPlace_of_mem (nodup_digestsOf found) (mem_digestsOf.mpr known)]
  · rw [if_neg known, addPlace_of_notMem, map_append, map_singleton, if_pos rfl,
      placesOf_eq_nil known]
    · congr 1
      apply map_congr_left
      intro digest member
      rw [if_neg]
      rintro rfl
      exact known (mem_digestsOf.mp member)
    · intro member
      rcases mem_map.mp member with ⟨group, inside, equal⟩
      rcases mem_map.mp inside with ⟨digest, listed, rfl⟩
      exact known (equal ▸ mem_digestsOf.mp listed)

theorem placesByDigest_eq (reports : List (String × FileReport)) :
    placesByDigest reports = grouped (occurrencesIn reports) := by
  have pairs : (reports.flatMap fun entry => entry.2.digests.map fun digest => (digest, entry.1)) =
      (occurrencesIn reports).map fun occurrence => (occurrence.digest, occurrence.file) := by
    rw [occurrencesIn, map_flatMap]
    simp only [map_map, Function.comp_def]
  have collected : placesByDigest reports = (occurrencesIn reports).foldl
      (fun places occurrence => addPlace occurrence.digest occurrence.file places) [] := by
    change foldl _ [] (reports.flatMap fun entry => _) = _
    rw [pairs, foldl_map]
  rw [collected]
  generalize occurrencesIn reports = found
  induction found using reverseRecOn with
  | nil => rfl
  | append_singleton found added ih =>
      rw [foldl_append, ih, grouped_concat]
      rfl

/-! ## Findings -/

theorem duplicationFindings_eq (reports : List (String × FileReport)) :
    duplicationFindings reports = (repeatedIn (occurrencesIn reports)).map fun digest =>
      duplicationFinding (placesOf (occurrencesIn reports) digest) := by
  rw [duplicationFindings, placesByDigest_eq, grouped, filter_map, map_map, repeatedIn]
  simp only [Function.comp_def, length_placesOf]
  rfl

/-- No other finding of a survey is about duplicates. -/
theorem filter_findings (grammar : Grammar) (files : Files) (root : Files.Path) :
    (surveyAt grammar files root).findings.filter (fun finding => finding.category = .duplication) =
      duplicationFindings (surveyAt grammar files root).files := by
  simp only [surveyAt]
  rw [filter_append, filter_append, filter_eq_nil_iff.mpr, nil_append,
    filter_eq_self.mpr, filter_eq_nil_iff.mpr, append_nil]
  · intro finding member
    split at member
    · cases member
    · rw [mem_singleton.mp member]
      simp [testingFinding]
  · intro finding member
    rcases mem_map.mp member with ⟨entry, _, rfl⟩
    rfl
  · intro finding member
    rcases mem_flatMap.mp member with ⟨surveyed, listed, inFile⟩
    rcases mem_mapIdx.mp listed with ⟨position, inRange, rfl⟩
    rcases Analysis.mem_scriptFile.mp inFile with ⟨todo, _, rfl⟩ | ⟨suspicion, _, rfl⟩
    · simp [todoFinding]
    · simp [suspicionFinding]

/-- The digests of the reports are those of the functions that are read from the files. -/
theorem map_digests_files (grammar : Grammar) (files : Files) (root : Files.Path) :
    ((surveyAt grammar files root).files.map fun entry => (entry.1, entry.2.digests)) =
      (sourcePaths files root).mapIdx fun position path => (Files.relativeText path,
        (reading (files.readLenient (root ++ path)) (grammar.tree? position)).1.filterMap
          bodyDigest?) := by
  apply ext_getElem?
  intro position
  simp only [surveyAt, map_map, getElem?_map, getElem?_mapIdx, Option.map_map]
  rfl

/-- What a finding says of a digest that occurs several times. -/
structure Tells (found : List Occurrence) (digest : String) (finding : Finding) : Prop where
  /-- The finding stands in the file of the first occurrence. -/
  first : finding.file? =
    (found.find? fun occurrence => occurrence.digest = digest).map Occurrence.file
  /-- The files of all occurrences are its evidence, as a list in JSON. -/
  evidence : finding.details.map Details.evidence =
    some (Json.texts (placesOf found digest)).render

theorem tells_duplicationFinding (repeated : digest ∈ repeatedIn found) :
    Tells found digest (duplicationFinding (placesOf found digest)) where
  first := by
    have several := mem_repeatedIn.mp repeated
    rw [← length_placesOf] at several
    rw [← head?_filter, ← head?_map, ← placesOf]
    cases places : placesOf found digest with
    | nil =>
        rw [places] at several
        cases several
    | cons place rest => rfl
  evidence := rfl

/-- There is one finding for each digest of a function that occurs at least twice in the scripts
of a repository, in order of first occurrence.  Scripts and functions come in the order of the
walk and of the reading, whether by the grammar or by the text. -/
theorem duplicates_are_told_once (grammar : Grammar) (files : Files) (root : Files.Path) :
    let survey := surveyAt grammar files root
    let found := occurrencesIn survey.files
    (survey.files.map fun entry => (entry.1, entry.2.digests)) =
        ((sourcePaths files root).mapIdx fun position path => (Files.relativeText path,
          (reading (files.readLenient (root ++ path)) (grammar.tree? position)).1.filterMap
            bodyDigest?)) ∧
      (repeatedIn found).Nodup ∧
      (∀ digest, digest ∈ repeatedIn found ↔
        2 ≤ (found.map Occurrence.digest).count digest) ∧
      Forall₂ (Tells found) (repeatedIn found)
        (survey.findings.filter fun finding => finding.category = .duplication) := by
  refine ⟨map_digests_files grammar files root, (nodup_digestsOf _).filter _,
    fun digest => mem_repeatedIn, ?_⟩
  rw [filter_findings, duplicationFindings_eq, forall₂_map_right_iff, forall₂_same]
  intro digest repeated
  exact tells_duplicationFinding repeated

end Script
end Survey
end CodeQuality
