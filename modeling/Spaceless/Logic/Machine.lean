import Mathlib.Data.List.Induction

/-!
# Deterministic machines and their runs

A machine has a start state and a partial step function; an event without a
successor is impossible in that state.  Properties of reached states are
proved by induction on the events of the run, with the history at hand; a
run whose steps all meet a condition has its own rule.
-/

namespace Spaceless
namespace Logic

/-- A deterministic machine on events. -/
structure Machine (State Event : Type) where
  start : State
  step : State → Event → Option State

namespace Machine

variable {State Event : Type} (machine : Machine State Event)

/-- Execute a list of events. -/
def run : State → List Event → Option State
  | state, [] => some state
  | state, event :: events =>
      (machine.step state event).bind fun next => run next events

@[simp] theorem run_nil (state : State) :
    machine.run state [] = some state := rfl

@[simp] theorem run_cons
    (state : State) (event : Event) (events : List Event) :
    machine.run state (event :: events) =
      (machine.step state event).bind fun next =>
        machine.run next events := rfl

theorem run_append
    (state : State) (first second : List Event) :
    machine.run state (first ++ second) =
      (machine.run state first).bind fun middle =>
        machine.run middle second := by
  induction first generalizing state with
  | nil => rfl
  | cons event events inductionHypothesis =>
      cases stepped : machine.step state event with
      | none => simp [stepped]
      | some next => simp [stepped, inductionHypothesis]

/-- The events lead from the start state to the given state. -/
def Reaches (events : List Event) (state : State) : Prop :=
  machine.run machine.start events = some state

/-- Some list of events leads to the state. -/
def Reachable (state : State) : Prop :=
  ∃ events, machine.Reaches events state

instance [DecidableEq State] (events : List Event) (state : State) :
    Decidable (machine.Reaches events state) :=
  inferInstanceAs (Decidable (_ = _))

variable {machine}

theorem reaches_nil : machine.Reaches [] machine.start := rfl

theorem reaches_append_iff
    {first second : List Event} {state : State} :
    machine.Reaches (first ++ second) state ↔
      ∃ middle, machine.Reaches first middle ∧
        machine.run middle second = some state := by
  simp only [Reaches, run_append, Option.bind_eq_some_iff]

theorem reaches_snoc_iff
    {events : List Event} {event : Event} {state : State} :
    machine.Reaches (events ++ [event]) state ↔
      ∃ middle, machine.Reaches events middle ∧
        machine.step middle event = some state := by
  simp [reaches_append_iff]

theorem Reaches.unique
    {events : List Event} {state other : State}
    (reaches : machine.Reaches events state)
    (reachesOther : machine.Reaches events other) :
    state = other :=
  Option.some.inj (reaches.symm.trans reachesOther)

/-- Every prefix of a run reaches a state. -/
theorem Reaches.of_append
    {first second : List Event} {state : State}
    (reaches : machine.Reaches (first ++ second) state) :
    ∃ middle, machine.Reaches first middle :=
  (reaches_append_iff.mp reaches).imp fun _ both => both.1

/-- Induction on a run with its history: the property may speak of the events
so far. -/
theorem Reaches.induction
    {motive : List Event → State → Prop}
    (atStart : motive [] machine.start)
    (atStep : ∀ events state event next,
      machine.Reaches events state → motive events state →
      machine.step state event = some next →
      motive (events ++ [event]) next)
    {events : List Event} {state : State}
    (reaches : machine.Reaches events state) :
    motive events state := by
  induction events using List.reverseRecOn generalizing state with
  | nil =>
      obtain rfl := reaches_nil.unique reaches
      exact atStart
  | append_singleton events event inductionHypothesis =>
      obtain ⟨middle, before, stepped⟩ := reaches_snoc_iff.mp reaches
      exact atStep events middle event state before
        (inductionHypothesis before) stepped

/-- What holds at the start and is kept by every step holds in every
reachable state. -/
theorem Reachable.invariant
    {property : State → Prop}
    (atStart : property machine.start)
    (atStep : ∀ state event next, property state →
      machine.step state event = some next → property next)
    {state : State} (reachable : machine.Reachable state) :
    property state := by
  obtain ⟨events, reaches⟩ := reachable
  exact Reaches.induction (motive := fun _ => property) atStart
    (fun _ state event next _ holds stepped =>
      atStep state event next holds stepped) reaches

theorem Reachable.step
    {state next : State} {event : Event}
    (reachable : machine.Reachable state)
    (stepped : machine.step state event = some next) :
    machine.Reachable next := by
  obtain ⟨events, reaches⟩ := reachable
  exact ⟨events ++ [event], reaches_snoc_iff.mpr ⟨state, reaches, stepped⟩⟩

variable (machine) in
/-- Every state that the run passes through has the property. -/
def Throughout (property : State → Prop) (events : List Event) : Prop :=
  ∀ first second, events = first ++ second →
    ∀ state, machine.Reaches first state → property state

/-! ## Runs whose steps meet a condition -/

variable (machine) in
/-- Every step of the run meets the condition in the state before it. -/
def StepsMeet (condition : State → Event → Prop)
    (events : List Event) : Prop :=
  ∀ first event second, events = first ++ event :: second →
    ∀ state, machine.Reaches first state → condition state event

theorem StepsMeet.of_snoc
    {condition : State → Event → Prop}
    {events : List Event} {event : Event}
    (meets : machine.StepsMeet condition (events ++ [event])) :
    machine.StepsMeet condition events := by
  intro first middle second split state reaches
  exact meets first middle (second ++ [event]) (by simp [split]) state reaches

theorem StepsMeet.last
    {condition : State → Event → Prop}
    {events : List Event} {event : Event}
    (meets : machine.StepsMeet condition (events ++ [event]))
    {state : State} (reaches : machine.Reaches events state) :
    condition state event :=
  meets events event [] rfl state reaches

theorem StepsMeet.snoc
    {condition : State → Event → Prop}
    {events : List Event} {event : Event}
    (meets : machine.StepsMeet condition events)
    (last : ∀ state, machine.Reaches events state →
      condition state event) :
    machine.StepsMeet condition (events ++ [event]) := by
  intro first middle second split state reaches
  rcases List.eq_nil_or_concat second with rfl | ⟨rest, final, rfl⟩
  · obtain ⟨rfl, same⟩ := List.append_inj' split rfl
    cases same
    exact last state reaches
  · refine meets first middle rest ?_ state reaches
    have grouped : events ++ [event] =
        (first ++ middle :: rest) ++ [final] := by
      rw [split]
      simp
    exact (List.append_inj' grouped rfl).1

/-- A condition on events alone. -/
theorem StepsMeet.of_forall
    {condition : State → Event → Prop} {events : List Event}
    (all : ∀ event ∈ events, ∀ state, condition state event) :
    machine.StepsMeet condition events := by
  rintro first event second rfl state -
  exact all event (by simp) state

/-- What holds at the start and is kept by every step that meets the
condition holds in every state of a run whose steps meet it. -/
theorem StepsMeet.invariant
    {condition : State → Event → Prop} {property : State → Prop}
    (atStart : property machine.start)
    (atStep : ∀ state event next, property state → condition state event →
      machine.step state event = some next → property next)
    {events : List Event}
    (meets : machine.StepsMeet condition events)
    {state : State} (reaches : machine.Reaches events state) :
    property state := by
  induction events using List.reverseRecOn generalizing state with
  | nil =>
      obtain rfl := reaches_nil.unique reaches
      exact atStart
  | append_singleton events event inductionHypothesis =>
      obtain ⟨middle, before, stepped⟩ := reaches_snoc_iff.mp reaches
      exact atStep middle event state
        (inductionHypothesis meets.of_snoc before)
        (meets.last before) stepped

theorem StepsMeet.of_append
    {condition : State → Event → Prop} {first second : List Event}
    (meets : machine.StepsMeet condition (first ++ second)) :
    machine.StepsMeet condition first := by
  intro before event rest split state reaches
  exact meets before event (rest ++ second) (by simp [split]) state reaches

/-- The invariant rule for a whole run. -/
theorem StepsMeet.throughout
    {condition : State → Event → Prop} {property : State → Prop}
    (atStart : property machine.start)
    (atStep : ∀ state event next, property state → condition state event →
      machine.step state event = some next → property next)
    {events : List Event}
    (meets : machine.StepsMeet condition events) :
    machine.Throughout property events := by
  rintro first second rfl state reaches
  exact meets.of_append.invariant atStart atStep reaches

/-- Two conditions on steps that agree in the states of an invariant, which
such steps keep. -/
theorem stepsMeet_iff
    (invariant : State → Prop) {first second : State → Event → Prop}
    (atStart : invariant machine.start)
    (atStep : ∀ state event next, invariant state → second state event →
      machine.step state event = some next → invariant next)
    (agree : ∀ state event, invariant state →
      (first state event ↔ second state event))
    (events : List Event) :
    machine.StepsMeet first events ↔ machine.StepsMeet second events := by
  constructor
  · rintro meets before event rest rfl state reaches
    have inside : invariant state :=
      meets.of_append.invariant atStart
        (fun state event next inside meets =>
          atStep state event next inside ((agree state event inside).mp meets))
        reaches
    exact (agree state event inside).mp (meets before event rest rfl state
      reaches)
  · rintro meets before event rest rfl state reaches
    have inside : invariant state :=
      meets.of_append.invariant atStart atStep reaches
    exact (agree state event inside).mpr (meets before event rest rfl state
      reaches)

/-- Two conditions that agree on the steps from reachable states agree on
runs. -/
theorem Reaches.stepsMeet_iff {first second : State → Event → Prop}
    (agree : ∀ state event next, machine.Reachable state →
      machine.step state event = some next →
      (first state event ↔ second state event))
    {events : List Event} {last : State}
    (run : machine.Reaches events last) :
    machine.StepsMeet first events ↔ machine.StepsMeet second events := by
  have agrees (before : List Event) (event : Event) (rest : List Event)
      (split : events = before ++ event :: rest) (state : State)
      (reaches : machine.Reaches before state) :
      first state event ↔ second state event := by
    rw [split] at run
    obtain ⟨middle, reachesMiddle, after⟩ := reaches_append_iff.mp run
    obtain rfl := reaches.unique reachesMiddle
    obtain ⟨next, stepped, -⟩ := Option.bind_eq_some_iff.mp after
    exact agree state event next ⟨before, reaches⟩ stepped
  constructor
  · intro meets before event rest split state reaches
    exact (agrees before event rest split state reaches).mp
      (meets before event rest split state reaches)
  · intro meets before event rest split state reaches
    exact (agrees before event rest split state reaches).mpr
      (meets before event rest split state reaches)

/-- Where a condition decides, in the states of an invariant, whether a step
keeps the property, the property holds throughout a run exactly when all steps
of the run meet the condition. -/
theorem Reaches.throughout_iff_stepsMeet
    (invariant : State → Prop) {property : State → Prop}
    {condition : State → Event → Prop}
    (invariantAtStart : invariant machine.start)
    (invariantAtStep : ∀ state event next, invariant state →
      machine.step state event = some next → invariant next)
    (atStart : property machine.start)
    (atStep : ∀ state event next, invariant state → property state →
      machine.step state event = some next →
      (property next ↔ condition state event))
    {events : List Event} {last : State}
    (run : machine.Reaches events last) :
    machine.Throughout property events ↔
      machine.StepsMeet condition events := by
  constructor
  · rintro throughout first event second rfl state reaches
    obtain ⟨middle, before, after⟩ := reaches_append_iff.mp run
    obtain rfl := reaches.unique before
    obtain ⟨next, stepped, -⟩ := Option.bind_eq_some_iff.mp after
    have holds : property state :=
      throughout first (event :: second) rfl state reaches
    have holdsNext : property next :=
      throughout (first ++ [event]) second (by simp) next
        (reaches_snoc_iff.mpr ⟨state, reaches, stepped⟩)
    have inside : invariant state :=
      Reachable.invariant invariantAtStart invariantAtStep ⟨first, reaches⟩
    exact (atStep state event next inside holds stepped).mp holdsNext
  · intro meets
    have both : machine.Throughout
        (fun state => invariant state ∧ property state) events := by
      refine meets.throughout ⟨invariantAtStart, atStart⟩ ?_
      rintro state event next ⟨inside, holds⟩ meets stepped
      exact ⟨invariantAtStep state event next inside stepped,
        (atStep state event next inside holds stepped).mpr meets⟩
    intro first second split state reaches
    exact (both first second split state reaches).2

/-- Where steps that meet the condition keep a stronger property, and other
steps break a property of runs, that property holds throughout a run exactly
when all steps of the run meet the condition. -/
theorem Reaches.throughout_iff_of_stronger
    {stronger : State → Prop} {property : List Event → State → Prop}
    {condition : State → Event → Prop}
    (atStart : stronger machine.start)
    (weaken : ∀ events state, machine.Reaches events state →
      stronger state → property events state)
    (keeps : ∀ state event next, stronger state → condition state event →
      machine.step state event = some next → stronger next)
    (breaks : ∀ events state event next, stronger state →
      ¬condition state event → machine.step state event = some next →
      ¬property events next)
    {events : List Event} {last : State}
    (run : machine.Reaches events last) :
    (∀ first second, events = first ++ second → ∀ state,
        machine.Reaches first state → property first state) ↔
      machine.StepsMeet condition events := by
  constructor
  · intro throughout
    suffices both : machine.StepsMeet condition events ∧ stronger last from
      both.1
    refine Reaches.induction
      (motive := fun events state =>
        (∀ first second, events = first ++ second → ∀ state,
          machine.Reaches first state → property first state) →
        machine.StepsMeet condition events ∧ stronger state) ?_ ?_ run
      throughout
    · intro _
      exact ⟨StepsMeet.of_forall (by simp), atStart⟩
    · intro events state event next reaches inductionHypothesis stepped
        throughout
      obtain ⟨meets, strong⟩ := inductionHypothesis fun first second split =>
        throughout first (second ++ [event]) (by simp [split])
      have holds : property (events ++ [event]) next :=
        throughout (events ++ [event]) [] (List.append_nil _).symm next
          (reaches_snoc_iff.mpr ⟨state, reaches, stepped⟩)
      have met : condition state event := by
        by_contra unmet
        exact breaks _ state event next strong unmet stepped holds
      refine ⟨meets.snoc ?_, keeps state event next strong met stepped⟩
      intro other reachesOther
      exact reaches.unique reachesOther ▸ met
  · intro meets first second split state reaches
    exact weaken first state reaches
      (meets.throughout atStart keeps first second split state reaches)

/-- A run has a last state where its events are possible in the states of an
invariant. -/
theorem exists_run_of_inside {inside : State → Prop} {events : List Event}
    (possible : ∀ state event, event ∈ events → inside state →
      ∃ next, machine.step state event = some next ∧ inside next)
    {state : State} (start : inside state) :
    ∃ last, machine.run state events = some last := by
  induction events generalizing state with
  | nil => exact ⟨state, rfl⟩
  | cons event events inductionHypothesis =>
      obtain ⟨next, stepped, kept⟩ :=
        possible state event List.mem_cons_self start
      obtain ⟨last, run⟩ := inductionHypothesis
        (fun state event member =>
          possible state event (List.mem_cons_of_mem _ member)) kept
      exact ⟨last, by rw [run_cons, stepped, Option.bind_some, run]⟩

/-- Every run has a last state where every event is possible. -/
theorem exists_run
    (possible : ∀ state event, ∃ next,
      machine.step state event = some next)
    (state : State) (events : List Event) :
    ∃ last, machine.run state events = some last := by
  have always (state : State) (event : Event) (_ : event ∈ events)
      (_ : True) : ∃ next, machine.step state event = some next ∧ True :=
    (possible state event).imp fun _ stepped => ⟨stepped, trivial⟩
  exact exists_run_of_inside always trivial

/-- The same for machines on which every event is possible. -/
theorem throughout_iff_stepsMeet
    (invariant : State → Prop) {property : State → Prop}
    {condition : State → Event → Prop}
    (possible : ∀ state event, ∃ next,
      machine.step state event = some next)
    (invariantAtStart : invariant machine.start)
    (invariantAtStep : ∀ state event next, invariant state →
      machine.step state event = some next → invariant next)
    (atStart : property machine.start)
    (atStep : ∀ state event next, invariant state → property state →
      machine.step state event = some next →
      (property next ↔ condition state event))
    (events : List Event) :
    machine.Throughout property events ↔
      machine.StepsMeet condition events := by
  obtain ⟨last, run⟩ := exists_run possible machine.start events
  exact Reaches.throughout_iff_stepsMeet invariant invariantAtStart
    invariantAtStep atStart atStep run

/-! ## What a run puts out -/

section Outputs

variable {Output : Type} {output : State → Event → State → List Output}

variable (machine output) in
/-- What the steps of a run put out. -/
def outputs : State → List Event → List Output
  | _, [] => []
  | state, event :: events =>
      match machine.step state event with
      | none => []
      | some next => output state event next ++ outputs next events

theorem outputs_cons {state next : State} {event : Event}
    (stepped : machine.step state event = some next) (events : List Event) :
    machine.outputs output state (event :: events) =
      output state event next ++ machine.outputs output next events := by
  rw [outputs, stepped]

/-- What a run puts out after its first part. -/
theorem outputs_append {state middle : State} {first : List Event}
    (run : machine.run state first = some middle) (second : List Event) :
    machine.outputs output state (first ++ second) =
      machine.outputs output state first ++
        machine.outputs output middle second := by
  induction first generalizing state with
  | nil =>
      cases run
      rfl
  | cons event events inductionHypothesis =>
      obtain ⟨next, stepped, later⟩ := Option.bind_eq_some_iff.mp run
      rw [List.cons_append, outputs_cons stepped, outputs_cons stepped,
        inductionHypothesis later, List.append_assoc]

theorem outputs_snoc {state middle next : State} {events : List Event}
    {event : Event} (run : machine.run state events = some middle)
    (stepped : machine.step middle event = some next) :
    machine.outputs output state (events ++ [event]) =
      machine.outputs output state events ++ output middle event next := by
  rw [outputs_append run, outputs_cons stepped, outputs, List.append_nil]

/-- Steps that put out nothing. -/
theorem outputs_eq_nil {quiet : State → Prop}
    (atStep : ∀ state event next, quiet state →
      machine.step state event = some next →
      quiet next ∧ output state event next = [])
    {state last : State} {events : List Event} (inside : quiet state)
    (run : machine.run state events = some last) :
    quiet last ∧ machine.outputs output state events = [] := by
  induction events generalizing state with
  | nil =>
      cases run
      exact ⟨inside, rfl⟩
  | cons event events inductionHypothesis =>
      obtain ⟨next, stepped, later⟩ := Option.bind_eq_some_iff.mp run
      obtain ⟨kept, nothing⟩ := atStep state event next inside stepped
      obtain ⟨atEnd, rest⟩ := inductionHypothesis kept later
      rw [outputs_cons stepped, nothing, rest]
      exact ⟨atEnd, rfl⟩

/-- What is put out in the states of an invariant. -/
theorem outputs_forall {inside : State → Prop} {allowed : Output → Prop}
    {events : List Event}
    (atStep : ∀ state event next, event ∈ events → inside state →
      machine.step state event = some next →
      inside next ∧ ∀ item ∈ output state event next, allowed item)
    {state : State} (start : inside state) :
    ∀ item ∈ machine.outputs output state events, allowed item := by
  induction events generalizing state with
  | nil => simp [outputs]
  | cons event events inductionHypothesis =>
      intro item present
      cases stepped : machine.step state event with
      | none => simp [outputs, stepped] at present
      | some next =>
          obtain ⟨kept, permitted⟩ := atStep state event next
            List.mem_cons_self start stepped
          rw [outputs_cons stepped, List.mem_append] at present
          rcases present with now | later
          · exact permitted item now
          · refine inductionHypothesis ?_ kept item later
            intro state event next member
            exact atStep state event next (List.mem_cons_of_mem _ member)

/-- What leaves a live state puts out at most one item, and nothing is put
out afterwards. -/
theorem outputs_once {live quiet : State → Prop} {allowed : Output → Prop}
    (atQuiet : ∀ state event next, quiet state →
      machine.step state event = some next →
      quiet next ∧ output state event next = [])
    (atLive : ∀ state event next, live state →
      machine.step state event = some next →
      live next ∧ output state event next = [] ∨
        quiet next ∧ (output state event next).length ≤ 1 ∧
          ∀ item ∈ output state event next, allowed item)
    {state last : State} {events : List Event} (inside : live state)
    (run : machine.run state events = some last) :
    (machine.outputs output state events).length ≤ 1 ∧
      (∀ item ∈ machine.outputs output state events, allowed item) ∧
      (live last ∧ machine.outputs output state events = [] ∨
        quiet last) := by
  induction events generalizing state with
  | nil =>
      cases run
      exact ⟨Nat.zero_le 1, List.forall_mem_nil _, Or.inl ⟨inside, rfl⟩⟩
  | cons event events inductionHypothesis =>
      obtain ⟨next, stepped, later⟩ := Option.bind_eq_some_iff.mp run
      rw [outputs_cons stepped]
      rcases atLive state event next inside stepped with
        ⟨kept, nothing⟩ | ⟨ended, once, permitted⟩
      · rw [nothing, List.nil_append]
        exact inductionHypothesis kept later
      · obtain ⟨atEnd, rest⟩ := outputs_eq_nil atQuiet ended later
        rw [rest, List.append_nil]
        exact ⟨once, permitted, Or.inr atEnd⟩

end Outputs

/-! ## Conditions that can be evaluated -/

/-- Every step of the run from the state passes the check. -/
def checks (check : State → Event → Bool) : State → List Event → Bool
  | _, [] => true
  | state, event :: events =>
      check state event &&
        match machine.step state event with
        | none => true
        | some next => checks check next events

theorem stepsMeet_of_checks {condition : State → Event → Prop}
    {check : State → Event → Bool}
    (sound : ∀ state event, check state event = true →
      condition state event) {events : List Event}
    (passes : machine.checks check machine.start events = true) :
    machine.StepsMeet condition events := by
  rintro first event second rfl state reaches
  suffices along : ∀ start, machine.run start first = some state →
      machine.checks check start (first ++ event :: second) = true →
      check state event = true from
    sound state event (along machine.start reaches passes)
  clear reaches passes
  induction first with
  | nil =>
      intro start same passes
      cases same
      exact (Bool.and_eq_true_iff.mp passes).1
  | cons earlier first inductionHypothesis =>
      intro start run passes
      obtain ⟨next, stepped, rest⟩ := Option.bind_eq_some_iff.mp run
      have later := (Bool.and_eq_true_iff.mp passes).2
      rw [stepped] at later
      exact inductionHypothesis next rest later

end Machine

end Logic
end Spaceless
