import Mathlib.Data.List.Nodup
import Mathlib.Data.List.Induction

namespace CodeQuality

open List

namespace Analysis

/-!
The latest of every key.

Findings are kept by their identifiers and reports by their paths, in the same way:
what is put among others takes the place of what has its key, and comes last when
nothing has.  So what is kept has keys in order of first arrival, each once, and under
a key there is what was put there latest.

When things come in parts that have no key in common, the latest of a key is the latest
of its own part.  The order of the parts and their repetition then make no difference
to what is kept, only to where it stands.
-/

/-- Put something among others: in place of one with its key, and at the end otherwise. -/
def put {α κ : Type} [DecidableEq κ] (key : α → κ) (added : α) : List α → List α
  | [] => [added]
  | own :: rest => if key own = key added then added :: rest else own :: put key added rest

/-- Something is the last one of its key in a list. -/
def IsLatest {α κ : Type} (key : α → κ) (all : List α) (item : α) : Prop :=
  ∃ before after, all = before ++ item :: after ∧ ∀ other ∈ after, key other ≠ key item

/-- In order of first occurrence, one more item comes last unless it is there already. -/
theorem eraseDups_concat {α : Type} [BEq α] [LawfulBEq α] (items : List α) (added : α) :
    (items ++ [added]).eraseDups =
      if added ∈ items then items.eraseDups else items.eraseDups ++ [added] := by
  rw [eraseDups_append]
  by_cases inside : added ∈ items
  · simp [removeAll, inside]
  · simp [removeAll, inside, eraseDups_cons]

theorem nodup_eraseDups {α : Type} [BEq α] [LawfulBEq α] (items : List α) :
    items.eraseDups.Nodup := by
  induction items using reverseRecOn with
  | nil => exact nodup_nil
  | append_singleton items added ih =>
      rw [eraseDups_concat]
      split
      next => exact ih
      next absent =>
        rw [← mem_eraseDups] at absent
        exact concat_eq_append ▸ ih.concat absent

section

variable {α κ : Type} (key : α → κ)

variable {key} in
theorem IsLatest.mem {all : List α} {item : α} (latest : IsLatest key all item) : item ∈ all := by
  rcases latest with ⟨before, after, whole, _⟩
  rw [whole]
  exact mem_append_right before mem_cons_self

/-- What stands behind all others is the latest of its key, and it takes that place from everything
else with the same key. -/
theorem isLatest_concat (all : List α) (added item : α) :
    IsLatest key (all ++ [added]) item ↔
      item = added ∨ (key item ≠ key added ∧ IsLatest key all item) := by
  constructor
  · rintro ⟨before, after, whole, absent⟩
    rcases eq_nil_or_concat after with empty | ⟨middle, final, cut⟩
    · subst empty
      exact Or.inl (append_inj_right' whole rfl |> cons.inj |>.1).symm
    · subst cut
      rw [concat_eq_append, ← cons_append, ← append_assoc] at whole
      have parts := append_inj' whole rfl
      have same : added = final := (cons.inj parts.2).1
      refine Or.inr ⟨?_, before, middle, parts.1, ?_⟩
      · rw [same]
        exact (absent final (by simp)).symm
      · intro other member
        exact absent other (by simp [member])
  · rintro (equal | ⟨different, before, after, whole, absent⟩)
    · subst equal
      exact ⟨all, [], rfl, by simp⟩
    · refine ⟨before, after ++ [added], by rw [whole, append_assoc, cons_append], ?_⟩
      intro other member
      rcases mem_append.mp member with inside | final
      · exact absent other inside
      · rw [mem_singleton.mp final]
        exact Ne.symm different

/-- The latest of a key in two lists comes from the second one, or the second one does not have
the key. -/
theorem isLatest_append (first second : List α) (item : α) :
    IsLatest key (first ++ second) item ↔
      IsLatest key second item ∨ (key item ∉ second.map key ∧ IsLatest key first item) := by
  induction second using reverseRecOn with
  | nil =>
      rw [append_nil]
      constructor
      · intro latest
        exact Or.inr ⟨not_mem_nil, latest⟩
      · rintro (latest | ⟨_, latest⟩)
        · cases latest.mem
        · exact latest
  | append_singleton second added ih =>
      rw [← append_assoc, isLatest_concat, ih, isLatest_concat]
      simp only [map_append, map_singleton, mem_append, mem_singleton, not_or]
      constructor
      · rintro (equal | ⟨different, latest | ⟨outside, latest⟩⟩)
        · exact Or.inl (Or.inl equal)
        · exact Or.inl (Or.inr ⟨different, latest⟩)
        · exact Or.inr ⟨⟨outside, different⟩, latest⟩
      · rintro ((equal | ⟨different, latest⟩) | ⟨⟨outside, different⟩, latest⟩)
        · exact Or.inl equal
        · exact Or.inr ⟨different, Or.inl latest⟩
        · exact Or.inr ⟨different, Or.inr ⟨outside, latest⟩⟩

/-- When no two parts have a key in common, the latest in some of the parts are the latest of each
of them. -/
theorem isLatest_flatMap {ι : Type} (parts : ι → List α)
    (owned : ∀ one other, ∀ first ∈ parts one, ∀ second ∈ parts other,
      key first = key second → one = other) (chosen : List ι) (item : α) :
    IsLatest key (chosen.flatMap parts) item ↔ ∃ one ∈ chosen, IsLatest key (parts one) item := by
  induction chosen with
  | nil =>
      constructor
      · intro latest
        cases latest.mem
      · rintro ⟨one, member, _⟩
        cases member
  | cons head rest ih =>
      rw [flatMap_cons, isLatest_append, ih]
      constructor
      · rintro (⟨one, member, latest⟩ | ⟨_, latest⟩)
        · exact ⟨one, mem_cons_of_mem _ member, latest⟩
        · exact ⟨head, mem_cons_self, latest⟩
      · rintro ⟨one, member, latest⟩
        rcases mem_cons.mp member with equal | later
        · subst equal
          by_cases repeated : key item ∈ (rest.flatMap parts).map key
          -- only a part that is chosen again can have the key a second time
          · rcases mem_map.mp repeated with ⟨second, inside, same⟩
            rcases mem_flatMap.mp inside with ⟨other, chosenAgain, inOther⟩
            have equal := owned one other item latest.mem second inOther same.symm
            exact Or.inl ⟨one, equal ▸ chosenAgain, latest⟩
          · exact Or.inr ⟨repeated, latest⟩
        · exact Or.inl ⟨one, later, latest⟩

/-- The latest of what is made of other things is made of the latest of them. -/
theorem isLatest_map {β : Type} (make : β → α) (all : List β) (item : α) :
    IsLatest key (all.map make) item ↔
      ∃ source, IsLatest (fun source => key (make source)) all source ∧ make source = item := by
  induction all using reverseRecOn with
  | nil =>
      constructor
      · intro latest
        cases latest.mem
      · rintro ⟨source, latest, _⟩
        cases latest.mem
  | append_singleton all added ih =>
      rw [map_append, map_singleton, isLatest_concat, ih]
      simp only [isLatest_concat]
      constructor
      · rintro (rfl | ⟨different, source, latest, rfl⟩)
        · exact ⟨added, Or.inl rfl, rfl⟩
        · exact ⟨source, Or.inr ⟨different, latest⟩, rfl⟩
      · rintro ⟨source, rfl | ⟨different, latest⟩, rfl⟩
        · exact Or.inl rfl
        · exact Or.inr ⟨different, source, latest, rfl⟩

/-- Every key that is there has a latest. -/
theorem exists_isLatest {all : List α} {item : α} (member : item ∈ all) :
    ∃ latest, IsLatest key all latest ∧ key latest = key item := by
  induction all using reverseRecOn with
  | nil => cases member
  | append_singleton all added ih =>
      simp only [isLatest_concat]
      by_cases same : key item = key added
      · exact ⟨added, Or.inl rfl, same.symm⟩
      · rcases mem_append.mp member with early | final
        · rcases ih early with ⟨latest, isLatest, equal⟩
          exact ⟨latest, Or.inr ⟨equal ▸ same, isLatest⟩, equal⟩
        · exact absurd (congrArg key (mem_singleton.mp final)) same

variable [DecidableEq κ]

/-! ## What is kept -/

/-- A key that is there stays where it is, and a new one comes last. -/
theorem map_key_put (added : α) (kept : List α) :
    (put key added kept).map key =
      if key added ∈ kept.map key then kept.map key else kept.map key ++ [key added] := by
  induction kept with
  | nil => rfl
  | cons own rest ih =>
      by_cases same : key own = key added
      · simp [put, same]
      · by_cases inside : key added ∈ rest.map key
        · rw [put, if_neg same, map_cons, ih, if_pos inside, map_cons,
            if_pos (mem_cons_of_mem _ inside)]
        · have outside : key added ∉ key own :: rest.map key := by
            rw [mem_cons, not_or]
            exact ⟨Ne.symm same, inside⟩
          rw [put, if_neg same, map_cons, ih, if_neg inside, map_cons,
            if_neg outside, cons_append]

/-- No key is there twice, however much is put. -/
theorem nodup_map_key_foldl_put (all : List α) (kept : List α) (unique : (kept.map key).Nodup) :
    ((all.foldl (fun kept added => put key added kept) kept).map key).Nodup := by
  induction all generalizing kept with
  | nil => exact unique
  | cons added rest ih =>
      apply ih
      rw [map_key_put]
      by_cases inside : key added ∈ kept.map key
      · rw [if_pos inside]
        exact unique
      · rw [if_neg inside, ← concat_eq_append]
        exact unique.concat inside

/-- When no key is repeated, putting something among others leaves those with other keys and
nothing else. -/
theorem mem_put {added item : α} {kept : List α} (unique : (kept.map key).Nodup) :
    item ∈ put key added kept ↔ item = added ∨ (key item ≠ key added ∧ item ∈ kept) := by
  induction kept with
  | nil => simp [put]
  | cons own rest ih =>
      rw [map_cons, nodup_cons] at unique
      by_cases same : key own = key added
      · rw [put, if_pos same, mem_cons]
        constructor
        · rintro (equal | inside)
          · exact Or.inl equal
          · refine Or.inr ⟨?_, mem_cons_of_mem _ inside⟩
            intro repeated
            exact unique.1 (same.trans repeated.symm ▸ mem_map_of_mem inside)
        · rintro (equal | ⟨different, inside⟩)
          · exact Or.inl equal
          · rcases mem_cons.mp inside with equal | inside
            · exact absurd (equal ▸ same) different
            · exact Or.inr inside
      · rw [put, if_neg same, mem_cons, mem_cons, ih unique.2]
        constructor
        · rintro (equal | equal | ⟨different, inside⟩)
          · exact Or.inr ⟨equal ▸ same, Or.inl equal⟩
          · exact Or.inl equal
          · exact Or.inr ⟨different, Or.inr inside⟩
        · rintro (equal | ⟨different, equal | inside⟩)
          · exact Or.inr (Or.inl equal)
          · exact Or.inl equal
          · exact Or.inr (Or.inr ⟨different, inside⟩)

/-- What is kept in the end is the latest of each key. -/
theorem mem_foldl_put (all : List α) (item : α) :
    item ∈ all.foldl (fun kept added => put key added kept) [] ↔ IsLatest key all item := by
  induction all using reverseRecOn with
  | nil =>
      constructor
      · intro member
        cases member
      · intro latest
        cases latest.mem
  | append_singleton all added ih =>
      rw [foldl_append, foldl_cons, foldl_nil,
        mem_put key (nodup_map_key_foldl_put key all [] nodup_nil), ih, isLatest_concat]

/-- What is kept of parts without common keys does not depend on their order, nor on how often one
of them is repeated. -/
theorem foldl_put_flatMap_perm {ι : Type} (parts : ι → List α)
    (owned : ∀ one other, ∀ first ∈ parts one, ∀ second ∈ parts other,
      key first = key second → one = other) {first second : List ι}
    (same : ∀ one, one ∈ first ↔ one ∈ second) :
    ((first.flatMap parts).foldl (fun kept added => put key added kept) []).Perm
      ((second.flatMap parts).foldl (fun kept added => put key added kept) []) := by
  have unique : ∀ all : List α, (all.foldl (fun kept added => put key added kept) []).Nodup :=
    fun all => (nodup_map_key_foldl_put key all [] nodup_nil).of_map
  refine (perm_ext_iff_of_nodup (unique _) (unique _)).mpr ?_
  intro item
  rw [mem_foldl_put, mem_foldl_put, isLatest_flatMap key parts owned,
    isLatest_flatMap key parts owned]
  exact exists_congr fun one => and_congr_left fun _ => same one

end

end Analysis
end CodeQuality
