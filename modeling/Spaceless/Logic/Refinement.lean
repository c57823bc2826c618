import Spaceless.Logic.Machine

/-!
# Refinement between machines

A relation between the states of two machines that holds at the start, and
that every concrete step keeps up with some abstract steps, carries over to
whole runs.  When each concrete event is one abstract event, the abstract
machine runs on the same list.
-/

namespace Spaceless
namespace Logic
namespace Machine

variable {State Event Abstract Call : Type} {machine : Machine State Event}

/-- Every step is one step of the abstract machine on the same event. -/
theorem Reaches.lockstep (abstract : Machine Abstract Event)
    (related : State → Abstract → Prop)
    (atStart : related machine.start abstract.start)
    (atStep : ∀ state event next view, related state view →
      machine.step state event = some next →
      ∃ nextView, abstract.step view event = some nextView ∧
        related next nextView)
    {events : List Event} {state : State}
    (reaches : machine.Reaches events state) :
    ∃ view, abstract.Reaches events view ∧ related state view := by
  refine Reaches.induction
    (motive := fun events state =>
      ∃ view, abstract.Reaches events view ∧ related state view)
    ⟨_, reaches_nil, atStart⟩ ?_ reaches
  rintro events state event next - ⟨view, viewReaches, same⟩ stepped
  obtain ⟨nextView, viewStepped, nextSame⟩ :=
    atStep state event next view same stepped
  exact ⟨nextView, reaches_snoc_iff.mpr ⟨view, viewReaches, viewStepped⟩,
    nextSame⟩

/-- A part of the state whose machine makes its own moves in every step: the
moves that the steps of a run make of it are a run of the part. -/
theorem Reaches.project (part : Machine Abstract Call)
    (view : State → Abstract)
    (moves : State → Event → State → List Call)
    (atStart : view machine.start = part.start)
    (atStep : ∀ state event next, machine.step state event = some next →
      part.run (view state) (moves state event next) = some (view next))
    {events : List Event} {state : State}
    (reaches : machine.Reaches events state) :
    part.Reaches (machine.outputs moves machine.start events)
      (view state) := by
  refine Reaches.induction
    (motive := fun events state =>
      part.Reaches (machine.outputs moves machine.start events)
        (view state)) ?_ ?_ reaches
  · rw [atStart]
    exact reaches_nil
  · intro events state event next reached before stepped
    rw [outputs_snoc reached stepped]
    exact reaches_append_iff.mpr
      ⟨view state, before, atStep state event next stepped⟩

/-- Every step from a reachable state is a run of the abstract machine, or
takes it back to its start. -/
theorem Reachable.simulation (abstract : Machine Abstract Call)
    (related : State → Abstract → Prop)
    (atStart : related machine.start abstract.start)
    (atStep : ∀ state event next view, machine.Reachable state →
      related state view → machine.step state event = some next →
      related next abstract.start ∨
      ∃ calls nextView, abstract.run view calls = some nextView ∧
        related next nextView)
    {state : State} (reachable : machine.Reachable state) :
    ∃ view, abstract.Reachable view ∧ related state view := by
  obtain ⟨events, reaches⟩ := reachable
  have atFirst : abstract.Reachable abstract.start := ⟨[], reaches_nil⟩
  refine Reaches.induction
    (motive := fun _ state =>
      ∃ view, abstract.Reachable view ∧ related state view)
    ⟨_, atFirst, atStart⟩ ?_ reaches
  rintro events state event next reached ⟨view, ⟨before, viewReaches⟩, same⟩
    stepped
  rcases atStep state event next view ⟨events, reached⟩ same stepped with
    restarted | ⟨calls, nextView, viewRan, nextSame⟩
  · exact ⟨_, atFirst, restarted⟩
  · exact ⟨nextView,
      ⟨before ++ calls, reaches_append_iff.mpr ⟨view, viewReaches, viewRan⟩⟩,
      nextSame⟩

end Machine

end Logic
end Spaceless
