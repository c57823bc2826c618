import Mathlib.Tactic.Common

/-!
# Computations that change a state and may fail

An action runs on a state and either returns a value or stops with a fault.
What it did to the state before a fault stays done: nothing is rolled back.
`Ensures` is the postcondition of one run, with one predicate for a normal
end and one for a fault; its rules follow the constructors of actions.
-/

namespace Spaceless
namespace Logic

/-- A computation on states `σ` with values `α` and faults `ε`. -/
def Action (ε σ α : Type) : Type := σ → Except ε α × σ

namespace Action

variable {ε σ τ α β : Type}

instance : Monad (Action ε σ) where
  pure value := fun state => (.ok value, state)
  bind first next := fun state =>
    match first state with
    | (.ok value, later) => next value later
    | (.error fault, later) => (.error fault, later)

instance : MonadExceptOf ε (Action ε σ) where
  throw fault := fun state => (.error fault, state)
  tryCatch body handler := fun state =>
    match body state with
    | (.ok value, later) => (.ok value, later)
    | (.error fault, later) => handler fault later

/-- Read a part of the state. -/
def read (view : σ → α) : Action ε σ α := fun state =>
  (.ok (view state), state)

/-- Change the state. -/
def modify (change : σ → σ) : Action ε σ Unit := fun state =>
  (.ok (), change state)

/-- Compute from the state a value or a fault, changing nothing. -/
def check (view : σ → Except ε α) : Action ε σ α := fun state =>
  (view state, state)

/-- Stop with a fault when the condition holds. -/
def throwIf (condition : Prop) [Decidable condition] (fault : ε) :
    Action ε σ Unit :=
  if condition then throw fault else pure ()

/-- Run an action on a part of the state. -/
def zoom (part : σ → τ) (put : σ → τ → σ) (inner : Action ε τ α) :
    Action ε σ α := fun state =>
  match inner (part state) with
  | (result, changed) => (result, put state changed)

/-- The state after a run. -/
def after (action : Action ε σ α) (state : σ) : σ := (action state).2

@[simp] theorem pure_apply (value : α) (state : σ) :
    (pure value : Action ε σ α) state = (.ok value, state) := rfl

@[simp] theorem throw_apply (fault : ε) (state : σ) :
    (throw fault : Action ε σ α) state = (.error fault, state) := rfl

@[simp] theorem read_apply (view : σ → α) (state : σ) :
    (read view : Action ε σ α) state = (.ok (view state), state) := rfl

@[simp] theorem modify_apply (change : σ → σ) (state : σ) :
    (modify change : Action ε σ Unit) state = (.ok (), change state) := rfl

@[simp] theorem check_apply (view : σ → Except ε α) (state : σ) :
    check view state = (view state, state) := rfl

theorem bind_apply
    (first : Action ε σ α) (next : α → Action ε σ β) (state : σ) :
    (first >>= next) state =
      match first state with
      | (.ok value, later) => next value later
      | (.error fault, later) => (.error fault, later) := rfl

/-- Ending with the value that a statement returns anyway. -/
theorem bind_pure_unit (action : Action ε σ Unit) (value : Unit) :
    (action >>= fun _ => pure value) = action := by
  funext state
  rw [bind_apply]
  split <;> rename_i outcome <;> rw [outcome]
  rfl

/-- Dropping the value leaves the state as it is. -/
theorem after_bind_pure (action : Action ε σ α) (value : β) (state : σ) :
    (action >>= fun _ => pure value).after state = action.after state := by
  simp only [after, bind_apply]
  split <;> rename_i outcome <;> rw [outcome]
  rfl

/-- After a normal first action the next one goes on. -/
theorem after_bind_of_ok
    {first : Action ε σ α} {next : α → Action ε σ β} {state : σ} {value : α}
    (normal : (first state).1 = .ok value) :
    (first >>= next).after state = (next value).after (first state).2 := by
  simp only [after, bind_apply]
  split <;> rename_i outcome <;> rw [outcome] at normal ⊢ <;> cases normal
  rfl

theorem zoom_apply
    (part : σ → τ) (put : σ → τ → σ)
    (inner : Action ε τ α) (state : σ) :
    zoom part put inner state =
      ((inner (part state)).1, put state (inner (part state)).2) := rfl

/-- The postcondition of one run: `normal` after a normal end, `failed` after
a fault. -/
def Ensures (action : Action ε σ α) (state : σ)
    (normal : α → σ → Prop) (failed : ε → σ → Prop) : Prop :=
  match action state with
  | (.ok value, later) => normal value later
  | (.error fault, later) => failed fault later

variable {normal : α → σ → Prop} {failed : ε → σ → Prop} {state : σ}

theorem ensures_pure {value : α} :
    Ensures (pure value : Action ε σ α) state normal failed ↔
      normal value state := Iff.rfl

theorem ensures_throw {fault : ε} :
    Ensures (throw fault : Action ε σ α) state normal failed ↔
      failed fault state := Iff.rfl

theorem ensures_read {view : σ → α} :
    Ensures (read view : Action ε σ α) state normal failed ↔
      normal (view state) state := Iff.rfl

theorem ensures_modify {change : σ → σ} {normal : Unit → σ → Prop} :
    Ensures (modify change : Action ε σ Unit) state normal failed ↔
      normal () (change state) := Iff.rfl

theorem ensures_check {view : σ → Except ε α} :
    Ensures (check view) state normal failed ↔
      (∀ value, view state = .ok value → normal value state) ∧
        ∀ fault, view state = .error fault → failed fault state := by
  simp only [Ensures, check_apply]
  cases view state <;> simp

/-- A sequence ensures what its second action ensures after the first one; a
fault of the first ends the sequence. -/
theorem ensures_bind
    {first : Action ε σ α} {next : α → Action ε σ β}
    {normal : β → σ → Prop} :
    Ensures (first >>= next) state normal failed ↔
      Ensures first state
        (fun value later => Ensures (next value) later normal failed)
        failed := by
  simp only [Ensures, bind_apply]
  cases first state with
  | mk result later => cases result <;> rfl

theorem ensures_ite
    {condition : Prop} [Decidable condition]
    {onTrue onFalse : Action ε σ α} :
    Ensures (if condition then onTrue else onFalse) state normal failed ↔
      (condition → Ensures onTrue state normal failed) ∧
        (¬condition → Ensures onFalse state normal failed) := by
  by_cases holds : condition <;> simp [holds]

theorem ensures_throwIf
    {condition : Prop} [Decidable condition] {fault : ε}
    {normal : Unit → σ → Prop} :
    Ensures (throwIf condition fault) state normal failed ↔
      (condition → failed fault state) ∧ (¬condition → normal () state) := by
  by_cases holds : condition <;>
    simp [throwIf, holds, ensures_throw, ensures_pure]

theorem ensures_zoom
    {part : σ → τ} {put : σ → τ → σ} {inner : Action ε τ α} :
    Ensures (zoom part put inner) state normal failed ↔
      Ensures inner (part state)
        (fun value changed => normal value (put state changed))
        (fun fault changed => failed fault (put state changed)) := by
  simp only [Ensures, zoom_apply]
  cases inner (part state) with
  | mk result changed => cases result <;> rfl

/-- A postcondition may be weakened. -/
theorem Ensures.mono
    {action : Action ε σ α}
    {weakerNormal : α → σ → Prop} {weakerFailed : ε → σ → Prop}
    (ensures : Ensures action state normal failed)
    (onNormal : ∀ value later, normal value later →
      weakerNormal value later)
    (onFailed : ∀ fault later, failed fault later →
      weakerFailed fault later) :
    Ensures action state weakerNormal weakerFailed := by
  unfold Ensures at ensures ⊢
  split at ensures
  · exact onNormal _ _ ensures
  · exact onFailed _ _ ensures

/-- A postcondition of every outcome needs no argument about the action. -/
theorem ensures_of_forall {action : Action ε σ α}
    (onNormal : ∀ value later, normal value later)
    (onFailed : ∀ fault later, failed fault later) :
    Ensures action state normal failed := by
  unfold Ensures
  split
  · exact onNormal _ _
  · exact onFailed _ _

/-- The postcondition of a run that is known. -/
theorem ensures_iff_of_ok {action : Action ε σ α} {value : α} {later : σ}
    (ran : action state = (.ok value, later)) :
    Ensures action state normal failed ↔ normal value later := by
  unfold Ensures
  rw [ran]

theorem ensures_iff_of_error {action : Action ε σ α} {fault : ε} {later : σ}
    (ran : action state = (.error fault, later)) :
    Ensures action state normal failed ↔ failed fault later := by
  unfold Ensures
  rw [ran]

theorem ensures_of_ok {action : Action ε σ α} {value : α} {later : σ}
    (ran : action state = (.ok value, later)) (holds : normal value later) :
    Ensures action state normal failed :=
  (ensures_iff_of_ok ran).mpr holds

/-- A postcondition at an outcome. -/
theorem Ensures.of_ok {action : Action ε σ α} {value : α} {later : σ}
    (ensures : Ensures action state normal failed)
    (ran : action state = (.ok value, later)) : normal value later :=
  (ensures_iff_of_ok ran).mp ensures

theorem Ensures.of_error {action : Action ε σ α} {fault : ε} {later : σ}
    (ensures : Ensures action state normal failed)
    (ran : action state = (.error fault, later)) : failed fault later :=
  (ensures_iff_of_error ran).mp ensures

/-- Every action ensures the exact outcome of its run. -/
theorem ensures_self (action : Action ε σ α) (state : σ) :
    Ensures action state
      (fun value later => action state = (.ok value, later))
      (fun fault later => action state = (.error fault, later)) := by
  unfold Ensures
  split <;> assumption

/-- A postcondition that ignores how the run ended holds of the state after
it. -/
theorem ensures_after {action : Action ε σ α} {holds : σ → Prop} :
    Ensures action state (fun _ => holds) (fun _ => holds) ↔
      holds (action.after state) := by
  unfold Ensures after
  split <;> rename_i outcome <;> rw [outcome]

-- from here on postconditions are handled by the rules above
attribute [irreducible] Ensures

end Action

end Logic
end Spaceless
