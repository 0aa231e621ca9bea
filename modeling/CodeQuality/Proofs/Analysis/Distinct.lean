import CodeQuality.Analysis
import CodeQuality.Proofs.Analysis.Latest

namespace CodeQuality

open List

namespace Analysis

/-!
What remains of findings when repeated identifiers are removed.

Of several findings with one identifier the last stays, in the place of the first.
So the identifiers of what remains are those of all findings in order of first
occurrence, and a finding remains exactly when it is the last one of its identifier.
Whether something is lost is therefore a question about identifiers only: it depends
neither on the order of the findings nor on how often one is repeated.
-/

/-- A finding is the last one of its identifier in a list. -/
def IsLast (findings : List Finding) (finding : Finding) : Prop :=
  ∃ before after, findings = before ++ finding :: after ∧ ∀ other ∈ after, other.id ≠ finding.id

theorem IsLast.mem {findings : List Finding} {finding : Finding} (last : IsLast findings finding) :
    finding ∈ findings :=
  IsLatest.mem last

/-- A finding behind all others is the last one of its identifier, and it takes that place from
every other finding with the same identifier. -/
theorem isLast_concat (findings : List Finding) (added finding : Finding) :
    IsLast (findings ++ [added]) finding ↔
      finding = added ∨ (finding.id ≠ added.id ∧ IsLast findings finding) :=
  isLatest_concat Finding.id findings added finding

/-- Some finding of every identifier is the last one. -/
theorem exists_isLast {findings : List Finding} {finding : Finding} (member : finding ∈ findings) :
    ∃ last, IsLast findings last ∧ last.id = finding.id := by
  induction findings using reverseRecOn with
  | nil => cases member
  | append_singleton findings added ih =>
      by_cases same : added.id = finding.id
      · exact ⟨added, (isLast_concat findings added added).mpr (Or.inl rfl), same⟩
      · have earlier : finding ∈ findings := by
          rcases mem_append.mp member with inside | final
          · exact inside
          · exact absurd (congrArg Finding.id (mem_singleton.mp final)).symm same
        rcases ih earlier with ⟨last, isLast, equal⟩
        refine ⟨last, (isLast_concat findings added last).mpr (Or.inr ⟨?_, isLast⟩), equal⟩
        rw [equal]
        exact Ne.symm same

/-! ## One more -/

theorem putFinding_eq (finding : Finding) (kept : List Finding) :
    putFinding finding kept = put Finding.id finding kept := by
  induction kept with
  | nil => rfl
  | cons own rest ih => rw [putFinding, put, ih]

theorem putReport_eq (path : String) (report : Survey.FileReport)
    (files : List (String × Survey.FileReport)) :
    putReport path report files = put Prod.fst (path, report) files := by
  induction files with
  | nil => rfl
  | cons own rest ih =>
      rcases own with ⟨place, old⟩
      rw [putReport, put, ih]
      by_cases same : place = path
      · rw [if_pos same, if_pos same, same]
      · rw [if_neg same, if_neg same]

/-! ## All findings -/

theorem distinct_concat (findings : List Finding) (finding : Finding) :
    distinct (findings ++ [finding]) = putFinding finding (distinct findings) := by
  rw [distinct, foldl_append]
  rfl

/-- The identifiers of what remains, in order of first occurrence. -/
theorem map_id_distinct (findings : List Finding) :
    (distinct findings).map Finding.id = (findings.map Finding.id).eraseDups := by
  induction findings using reverseRecOn with
  | nil => rfl
  | append_singleton findings finding ih =>
      rw [distinct_concat, putFinding_eq, map_key_put, ih, map_append, map_singleton]
      simp only [eraseDups_concat, mem_eraseDups]

theorem nodup_map_id_distinct (findings : List Finding) :
    ((distinct findings).map Finding.id).Nodup := by
  simp only [distinct, putFinding_eq]
  exact nodup_map_key_foldl_put Finding.id findings [] nodup_nil

/-- A finding remains exactly when it is the last one of its identifier. -/
theorem mem_distinct (findings : List Finding) (finding : Finding) :
    finding ∈ distinct findings ↔ IsLast findings finding := by
  simp only [distinct, putFinding_eq]
  exact mem_foldl_put Finding.id findings finding

/-- Nothing is lost exactly when no two different findings share an identifier. -/
theorem forall_mem_distinct_iff (findings : List Finding) :
    (∀ finding ∈ findings, finding ∈ distinct findings) ↔
      ∀ first ∈ findings, ∀ second ∈ findings, first.id = second.id → first = second := by
  constructor
  · intro kept first firstMember second secondMember same
    exact inj_on_of_nodup_map (nodup_map_id_distinct findings) (kept first firstMember)
      (kept second secondMember) same
  · intro apart finding member
    rcases exists_isLast member with ⟨last, isLast, same⟩
    have equal : last = finding := apart last isLast.mem finding member same
    exact (mem_distinct findings finding).mpr (equal ▸ isLast)

/-! ## Parts -/

/-- What remains is determined by the identifiers in order of first occurrence and by the last
findings. -/
theorem distinct_ext {first second : List Finding}
    (ids : (first.map Finding.id).eraseDups = (second.map Finding.id).eraseDups)
    (last : ∀ finding, IsLast first finding → IsLast second finding) :
    distinct first = distinct second := by
  have aligned : ∀ some other : List Finding, some.map Finding.id = other.map Finding.id →
      (other.map Finding.id).Nodup → (∀ finding ∈ some, finding ∈ other) → some = other := by
    intro some
    induction some with
    | nil =>
        intro other same _ _
        exact (map_eq_nil_iff.mp same.symm).symm
    | cons finding rest ih =>
        intro other same unique inside
        cases other with
        | nil => cases same
        | cons head tail =>
            have heads : finding.id = head.id := (cons.inj same).1
            have equal : finding = head := inj_on_of_nodup_map unique
              (inside finding mem_cons_self) mem_cons_self heads
            rw [map_cons, nodup_cons] at unique
            have tails : rest = tail := by
              apply ih tail (cons.inj same).2 unique.2
              intro later member
              rcases mem_cons.mp (inside later (mem_cons_of_mem _ member)) with atHead | below
              · have repeated : head.id ∈ tail.map Finding.id := by
                  rw [← (cons.inj same).2, ← atHead]
                  exact mem_map_of_mem member
                exact absurd repeated unique.1
              · exact below
            rw [equal, tails]
  apply aligned
  · rw [map_id_distinct, map_id_distinct, ids]
  · exact nodup_map_id_distinct second
  · intro finding member
    exact (mem_distinct second finding).mpr (last finding ((mem_distinct first finding).mp member))

/-- The last finding of an identifier in two lists comes from the second one, or the second one
does not have the identifier. -/
theorem isLast_append (first second : List Finding) (finding : Finding) :
    IsLast (first ++ second) finding ↔
      IsLast second finding ∨
        (finding.id ∉ second.map Finding.id ∧ IsLast first finding) :=
  isLatest_append Finding.id first second finding

theorem eraseDups_filter (isWanted : String → Bool) (ids : List String) :
    (ids.filter isWanted).eraseDups = ids.eraseDups.filter isWanted := by
  induction ids using reverseRecOn with
  | nil => rfl
  | append_singleton ids id ih =>
      rw [filter_append, eraseDups_append, eraseDups_append, ih, filter_append]
      by_cases wanted : isWanted id = true <;> by_cases inside : id ∈ ids <;>
        simp [removeAll, wanted, inside, eraseDups_cons]

/-- What remains of two lists depends only on what remains of each. -/
theorem distinct_append_congr {first second other another : List Finding}
    (left : distinct first = distinct other) (right : distinct second = distinct another) :
    distinct (first ++ second) = distinct (other ++ another) := by
  have idsOf : ∀ {some more : List Finding}, distinct some = distinct more →
      (some.map Finding.id).eraseDups = (more.map Finding.id).eraseDups := by
    intro some more same
    rw [← map_id_distinct, same, map_id_distinct]
  have members : ∀ {some more : List Finding}, distinct some = distinct more →
      ∀ id, id ∈ some.map Finding.id ↔ id ∈ more.map Finding.id := by
    intro some more same id
    rw [← mem_eraseDups, idsOf same, mem_eraseDups]
  have lasts : ∀ {some more : List Finding}, distinct some = distinct more →
      ∀ finding, IsLast some finding ↔ IsLast more finding := by
    intro some more same finding
    rw [← mem_distinct, same, mem_distinct]
  apply distinct_ext
  · have outside : (fun id => !(first.map Finding.id).elem id) =
        fun id => !(other.map Finding.id).elem id := by
      funext id
      rw [Bool.eq_iff_iff]
      simpa using not_congr (members left id)
    rw [map_append, map_append, eraseDups_append, eraseDups_append, idsOf left]
    simp only [removeAll]
    rw [eraseDups_filter, eraseDups_filter, outside, idsOf right]
  · intro finding
    rw [isLast_append, isLast_append, lasts left, lasts right, members right]
    exact id

/-- Findings that are there already change nothing. -/
theorem distinct_append_self (findings : List Finding) :
    distinct (findings ++ findings) = distinct findings := by
  apply distinct_ext
  · rw [map_append]
    generalize findings.map Finding.id = ids
    have none : ids.removeAll ids = [] := by simp [removeAll]
    rw [eraseDups_append, none, eraseDups_nil, append_nil]
  · intro finding last
    rcases (isLast_append findings findings finding).mp last with last | ⟨_, last⟩
    · exact last
    · exact last

/-- Findings can be picked out by their identifiers before one is put among them or after. -/
theorem filter_putFinding (isWanted : String → Bool) (added : Finding) (kept : List Finding) :
    (putFinding added kept).filter (fun finding => isWanted finding.id) =
      if isWanted added.id then
        putFinding added (kept.filter fun finding => isWanted finding.id)
      else kept.filter fun finding => isWanted finding.id := by
  induction kept with
  | nil => cases wanted : isWanted added.id <;> simp [putFinding, wanted]
  | cons own rest ih =>
      by_cases same : own.id = added.id
      · rw [putFinding, if_pos same]
        cases wanted : isWanted added.id <;> simp [putFinding, same, wanted]
      · rw [putFinding, if_neg same, filter_cons, ih, filter_cons]
        cases wanted : isWanted added.id <;> cases mine : isWanted own.id <;>
          simp [putFinding, same]

theorem filter_distinct (isWanted : String → Bool) (findings : List Finding) :
    (distinct findings).filter (fun finding => isWanted finding.id) =
      distinct (findings.filter fun finding => isWanted finding.id) := by
  induction findings using reverseRecOn with
  | nil => rfl
  | append_singleton findings added ih =>
      rw [distinct_concat, filter_putFinding, ih, filter_append]
      by_cases wanted : isWanted added.id = true
      · rw [if_pos wanted, filter_singleton, wanted, cond_true, distinct_concat]
      · rw [if_neg wanted, filter_singleton, (Bool.not_eq_true _).mp wanted, cond_false,
          append_nil]

end Analysis
end CodeQuality
