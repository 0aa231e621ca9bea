import CodeQuality.Fault
import Mathlib.Data.List.Forall2

namespace CodeQuality
namespace Outcome

/-!
Steps that may fail, one after the other.

A sequence of steps gives a value when each of its steps does.  The lemmas here take
such sequences apart and put them together, so that other proofs need not go through
the faults of every step.
-/

variable {α β : Type} {step : α → Outcome β} {items : List α}

/-- What two steps give, the second one gives from what the first one gave. -/
theorem exists_of_bind {first : Outcome α} {next : α → Outcome β} {value : β}
    (done : (first >>= next) = .ok value) :
    ∃ middle, first = .ok middle ∧ next middle = .ok value := by
  cases first with
  | error fault => cases done
  | ok middle => exact ⟨middle, rfl, done⟩

/-- What holds of all that a second step gives holds of all that two steps give. -/
theorem forall_of_bind {first : Outcome α} {next : α → Outcome β} {property : β → Prop}
    (each : ∀ middle value, next middle = .ok value → property value) :
    ∀ value, (first >>= next) = .ok value → property value := by
  intro value done
  rcases exists_of_bind done with ⟨middle, -, gave⟩
  exact each middle value gave

theorem exists_of_map {outcome : Outcome α} {change : α → β} {value : β}
    (done : outcome.map change = .ok value) :
    ∃ given, outcome = .ok given ∧ change given = value := by
  cases outcome with
  | error fault => cases done
  | ok given => exact ⟨given, rfl, Except.ok.inj done⟩

/-- When no item is at fault, neither is the list of them. -/
theorem mapM_eq_ok {α β : Type} {step : α → Outcome β} {give : α → β} {items : List α}
    (each : ∀ item ∈ items, step item = .ok (give item)) :
    items.mapM step = .ok (items.map give) := by
  induction items with
  | nil => rfl
  | cons item items ih =>
      rw [List.mapM_cons, each item List.mem_cons_self,
        ih fun other member => each other (List.mem_cons_of_mem _ member)]
      rfl

/-- What a list of steps gives comes from its steps. -/
theorem exists_of_mem_mapM {results : List β} (done : items.mapM step = .ok results) {result : β}
    (member : result ∈ results) : ∃ item ∈ items, step item = .ok result := by
  induction items generalizing results with
  | nil =>
      cases done
      cases member
  | cons item items ih =>
      rw [List.mapM_cons] at done
      rcases exists_of_bind done with ⟨value, first, remaining⟩
      rcases exists_of_bind remaining with ⟨values, rest, whole⟩
      cases whole
      rcases List.mem_cons.mp member with here | below
      · exact ⟨item, List.mem_cons_self, here ▸ first⟩
      · rcases ih rest below with ⟨other, inside, gave⟩
        exact ⟨other, List.mem_cons_of_mem _ inside, gave⟩

/-- When each item gives a value of some kind, the list of them gives such values. -/
theorem exists_mapM_eq_ok {property : β → Prop}
    (each : ∀ item ∈ items, ∃ value, step item = .ok value ∧ property value) :
    ∃ values, items.mapM step = .ok values ∧ ∀ value ∈ values, property value := by
  induction items with
  | nil => exact ⟨[], rfl, fun _ member => by cases member⟩
  | cons item items ih =>
      rcases each item List.mem_cons_self with ⟨value, first, fits⟩
      rcases ih fun other member => each other (List.mem_cons_of_mem item member) with
        ⟨values, rest, others⟩
      refine ⟨value :: values, ?_, List.forall_mem_cons.mpr ⟨fits, others⟩⟩
      rw [List.mapM_cons, first, rest]
      rfl

theorem forall₂_of_mapM {results : List β} (done : items.mapM step = .ok results) :
    List.Forall₂ (fun item result => step item = .ok result) items results := by
  induction items generalizing results with
  | nil =>
      cases done
      exact .nil
  | cons item items ih =>
      rw [List.mapM_cons] at done
      rcases exists_of_bind done with ⟨value, first, remaining⟩
      rcases exists_of_bind remaining with ⟨values, rest, whole⟩
      cases whole
      exact .cons first (ih rest)

end Outcome
end CodeQuality
