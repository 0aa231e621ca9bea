import CodeQuality.World
import Mathlib.Data.List.Forall2

namespace CodeQuality

/-!
Actions that do not fail.

An action may change the world and may fail.  Some actions succeed in every world, and
some part of what they give does not depend on it.  Such a property passes through
sequences and loops of actions; the worlds in between need not be mentioned.
-/

namespace Action

/-- In every world the action succeeds, and what it gives has a property. -/
def Gives {α : Type} (action : Action α) (property : α → Prop) : Prop :=
  ∀ world, ∃ value after, action.run.run world = (.ok value, after) ∧ property value

section

variable {α β γ : Type} {part : World → γ} {holds : World → Prop} {action : Action α}
  {next : α → Action β} {world after : World}

variable {value : α} {fault : Fault}

theorem gives_pure {property : α → Prop} (holds : property value) : Gives (pure value) property :=
  fun world => ⟨value, world, rfl, holds⟩

/-- Running two actions one after the other, when the first one succeeds. -/
theorem run_bind_of_ok (first : action.run.run world = (.ok value, after)) (next : α → Action β) :
    (action >>= next).run.run world = (next value).run.run after := by
  change (ExceptT.bindCont next (action world).1 : StateM World (Except Fault β))
    (action world).2 = _
  rw [show action world = (.ok value, after) from first]
  rfl

theorem run_get (world : World) : (get : Action World).run.run world = (.ok world, world) := rfl

theorem run_bind_of_error (first : action.run.run world = (.error fault, after))
    (next : α → Action β) : (action >>= next).run.run world = (.error fault, after) := by
  change (ExceptT.bindCont next (action world).1 : StateM World (Except Fault β))
    (action world).2 = _
  rw [show action world = (.error fault, after) from first]
  rfl

theorem run_ofOutcome (outcome : Outcome α) (world : World) :
    (ofOutcome outcome).run.run world = (outcome, world) := by
  cases outcome with
  | error fault => rfl
  | ok value => rfl

/-- Two actions that leave a world as it is are steps that do not use it. -/
theorem run_bind_of_outcomes {outcome : Outcome α} {more : α → Outcome β}
    (first : action.run.run world = (outcome, world))
    (second : ∀ value, (next value).run.run world = (more value, world)) :
    (action >>= next).run.run world = (outcome >>= more, world) := by
  cases outcome with
  | error fault =>
      rw [run_bind_of_error first]
      rfl
  | ok value =>
      rw [run_bind_of_ok first, second value]
      rfl

theorem Gives.bind {middle : α → Prop} {property : β → Prop} (first : Gives action middle)
    (second : ∀ value, middle value → Gives (next value) property) :
    Gives (action >>= next) property := by
  intro world
  rcases first world with ⟨value, between, ran, holds⟩
  rw [run_bind_of_ok ran]
  exact second value holds between

/-- Whatever an action does, its outcome is a value. -/
theorem gives_outcome (action : Action α) : Gives action.outcome fun _ => True :=
  fun world => ⟨(action.run.run world).1, (action.run.run world).2, rfl, trivial⟩

/-- A loop keeps what each of its steps keeps. -/
theorem gives_foldlM {step : α → β → Action α} (invariant : List β → α → Prop)
    (kept : ∀ done value item, invariant done value →
      Gives (step value item) (invariant (done ++ [item]))) {done : List β}
    (start : invariant done value) (items : List β) :
    Gives (items.foldlM step value) (invariant (done ++ items)) := by
  induction items generalizing done value with
  | nil =>
      rw [List.append_nil]
      exact gives_pure start
  | cons item items ih =>
      rw [List.foldlM_cons]
      refine (kept done value item start).bind fun next holds => ?_
      have rest := ih holds
      rw [List.append_assoc] at rest
      exact rest

/-! ## What an action leaves as it was -/

/-- Two actions that have given a value one after the other have both given one. -/
theorem exists_of_run_bind {value : β}
    (ran : (action >>= next).run.run world = (.ok value, after)) :
    ∃ middle between, action.run.run world = (.ok middle, between) ∧
      (next middle).run.run between = (.ok value, after) := by
  cases first : action.run.run world with
  | mk outcome between =>
      cases outcome with
      | error fault =>
          rw [run_bind_of_error first] at ran
          cases ran
      | ok middle =>
          rw [run_bind_of_ok first] at ran
          exact ⟨middle, between, rfl, ran⟩

/-- A part of the world is the same after an action, also when the action fails. -/
def Keeps {γ : Type} (part : World → γ) (action : Action α) : Prop :=
  ∀ world, part (action.run.run world).2 = part world

theorem Keeps.eq (keeps : Keeps part action) {outcome : Outcome α}
    (ran : action.run.run world = (outcome, after)) : part after = part world := by
  have same := keeps world
  rw [ran] at same
  exact same

theorem keeps_pure (part : World → γ) (value : α) : Keeps part (pure value : Action α) :=
  fun _ => rfl

theorem keeps_throw (part : World → γ) (fault : Fault) :
    Keeps part (throw fault : Action α) := fun _ => rfl

theorem keeps_get (part : World → γ) : Keeps part (get : Action World) := fun _ => rfl

theorem keeps_ofOutcome (part : World → γ) (outcome : Outcome α) :
    Keeps part (ofOutcome outcome) := by
  intro world
  rw [run_ofOutcome]

/-- What holds of the world before an action holds after it, also when the action fails. -/
def Preserves (holds : World → Prop) (action : Action α) : Prop :=
  ∀ world, holds world → holds (action.run.run world).2

/-- What comes after an action knows which run its value comes from. -/
theorem Preserves.bind_of_run (first : Preserves holds action)
    (second : ∀ world value after, action.run.run world = (.ok value, after) →
      Preserves holds (next value)) : Preserves holds (action >>= next) := by
  intro world before
  have between := first world before
  cases ran : action.run.run world with
  | mk outcome later =>
      rw [ran] at between
      cases outcome with
      | error fault =>
          rw [run_bind_of_error ran]
          exact between
      | ok value =>
          rw [run_bind_of_ok ran]
          exact second world value later ran later between

theorem Keeps.bind_of_run (first : Keeps part action)
    (second : ∀ world value after, action.run.run world = (.ok value, after) →
      Keeps part (next value)) : Keeps part (action >>= next) := by
  intro world
  apply @Preserves.bind_of_run _ _ fun later => part later = part world
  · exact fun before same => (first before).trans same
  · exact fun before value after ran later same => (second before value after ran later).trans same
  · rfl

theorem Keeps.bind (first : Keeps part action) (second : ∀ value, Keeps part (next value)) :
    Keeps part (action >>= next) :=
  first.bind_of_run fun _ value _ _ => second value

/-- What follows an action need not be looked at if it keeps the part that matters. -/
theorem part_of_bind (keeps : ∀ value, Keeps part (next value)) (world : World) :
    part ((action >>= next).run.run world).2 = part (action.run.run world).2 := by
  cases ran : action.run.run world with
  | mk outcome after =>
      cases outcome with
      | error fault => rw [run_bind_of_error ran]
      | ok value =>
          rw [run_bind_of_ok ran]
          exact keeps value after

theorem Keeps.bind_ofOutcome {outcome : Outcome α}
    (second : ∀ value, outcome = .ok value → Keeps part (next value)) :
    Keeps part (ofOutcome outcome >>= next) := by
  apply (keeps_ofOutcome part outcome).bind_of_run
  intro world value after ran
  rw [run_ofOutcome] at ran
  exact second value (Prod.mk.inj ran).1

theorem run_of_outcome {outcome : Outcome α}
    (ran : action.outcome.run.run world = (.ok outcome, after)) :
    action.run.run world = (outcome, after) := by
  rcases Prod.mk.inj ran with ⟨same, rfl⟩
  cases same
  rfl

theorem run_outcome {outcome : Outcome α} (ran : action.run.run world = (outcome, after)) :
    action.outcome.run.run world = (.ok outcome, after) := by
  change (Except.ok (action.run.run world).1, (action.run.run world).2) = _
  rw [ran]

theorem Keeps.outcome (keeps : Keeps part action) : Keeps part action.outcome := keeps

theorem Keeps.mapM {step : α → Action β} (each : ∀ item, Keeps part (step item))
    (items : List α) : Keeps part (items.mapM step) := by
  induction items with
  | nil =>
      rw [List.mapM_nil]
      exact keeps_pure part []
  | cons item items ih =>
      rw [List.mapM_cons]
      apply (each item).bind
      intro value
      apply ih.bind
      intro values
      exact keeps_pure part (value :: values)

/-- What a list of actions gives, its actions have given one by one, in worlds that agree in what
each of them keeps. -/
theorem forall₂_of_run_mapM {step : α → Action β} (each : ∀ item, Keeps part (step item))
    {items : List α} {values : List β}
    (ran : (items.mapM step).run.run world = (.ok values, after)) :
    List.Forall₂ (fun item value => ∃ before later, part before = part world ∧
      (step item).run.run before = (.ok value, later)) items values := by
  induction items generalizing world values with
  | nil =>
      cases ran
      exact .nil
  | cons item items ih =>
      rw [List.mapM_cons] at ran
      rcases exists_of_run_bind ran with ⟨value, between, first, ran⟩
      rcases exists_of_run_bind ran with ⟨rest, later, further, ran⟩
      cases ran
      refine .cons ⟨world, between, rfl, first⟩ ?_
      have same : part between = part world := (each item).eq first
      rw [← same]
      exact ih further

theorem Keeps.preserves (keeps : Keeps part action) (holds : γ → Prop) :
    Preserves (fun world => holds (part world)) action := by
  intro world before
  rw [keeps world]
  exact before

theorem Preserves.bind (first : Preserves holds action)
    (second : ∀ value, Preserves holds (next value)) : Preserves holds (action >>= next) :=
  first.bind_of_run fun _ value _ _ => second value

theorem Preserves.outcome (preserves : Preserves holds action) : Preserves holds action.outcome :=
  preserves

/-! ## Runs of the basic actions -/

/-- Steps that do not use the world do not use it in a list either. -/
theorem run_mapM_ofOutcome (step : α → Outcome β) (items : List α) (world : World) :
    (items.mapM fun item => ofOutcome (step item)).run.run world = (items.mapM step, world) := by
  induction items with
  | nil => rfl
  | cons item items ih =>
      rw [List.mapM_cons, List.mapM_cons]
      apply run_bind_of_outcomes (run_ofOutcome (step item) world)
      intro value
      apply run_bind_of_outcomes ih
      intro values
      rfl

theorem run_changeFiles (change : Files → Outcome α × Files) (world : World) :
    (changeFiles change).run.run world =
      ((change world.files).1, { world with files := (change world.files).2 }) := by
  have changed := run_ofOutcome (change world.files).1
    { world with files := (change world.files).2 }
  exact changed

theorem run_writeFile_of_ok {path : Files.Path} {shown : String} {content : Files.Content}
    {files : Files} (written : world.files.write path shown content = .ok files) :
    (writeFile path shown content).run.run world = (.ok (), { world with files }) := by
  rw [writeFile, run_bind_of_ok (run_get world), written]
  rfl

theorem run_writeFile_of_error {path : Files.Path} {shown : String} {content : Files.Content}
    (refused : world.files.write path shown content = .error fault) :
    (writeFile path shown content).run.run world = (.error fault, world) := by
  rw [writeFile, run_bind_of_ok (run_get world), refused]
  rfl

theorem run_saveReport_of_ok {now : Moment} {report : Json} {number : Nat} {archive : Archive}
    (saved : world.archive.save now report = .ok (number, archive)) :
    (saveReport now report).run.run world = (.ok number, { world with archive }) := by
  change (ofOutcome (world.archive.save now report) >>= fun result => do
    set { world with archive := result.2 }
    pure result.1 : Action Nat).run.run world = _
  rw [saved]
  rfl

theorem run_saveReport_of_error {now : Moment} {report : Json}
    (refused : world.archive.save now report = .error fault) :
    (saveReport now report).run.run world = (.error fault, world) := by
  change (ofOutcome (world.archive.save now report) >>= fun result => do
    set { world with archive := result.2 }
    pure result.1 : Action Nat).run.run world = _
  rw [refused]
  rfl

end

end Action
end CodeQuality
