import Mathlib.Order.Filter.AtTopBot.Basic

/-!
# Endless runs under a schedule

A system answers every event.  A schedule names the event of each moment, and
the trace is the sequence of states that it leads through.  What fairness
gives is stated on sequences: a measure that never grows, and drops again and
again as long as it is positive, comes down to zero.
-/

namespace Spaceless
namespace Logic

open Filter

variable {State Event : Type}

/-- The states that a schedule leads through. -/
def trace (advance : State → Event → State) (start : State)
    (schedule : ℕ → Event) : ℕ → State
  | 0 => start
  | moment + 1 =>
      advance (trace advance start schedule moment) (schedule moment)

section Trace

variable {advance : State → Event → State} {start : State}
  {schedule : ℕ → Event}

/-- What holds at some moment and is kept by every later step holds from then
on. -/
theorem trace_keeps (property : State → Prop) {first : ℕ}
    (atFirst : property (trace advance start schedule first))
    (atStep : ∀ moment, first ≤ moment →
      property (trace advance start schedule moment) →
      property (trace advance start schedule (moment + 1)))
    {moment : ℕ} (later : first ≤ moment) :
    property (trace advance start schedule moment) := by
  induction moment, later using Nat.le_induction with
  | base => exact atFirst
  | succ moment later inductionHypothesis =>
      exact atStep moment later inductionHypothesis

/-- What holds at the start and is kept by every step holds at all
moments. -/
theorem trace_invariant {property : State → Prop} (atStart : property start)
    (atStep : ∀ state event, property state → property (advance state event))
    (moment : ℕ) : property (trace advance start schedule moment) :=
  have atZero : property (trace advance start schedule 0) := atStart
  trace_keeps property atZero (fun _ _ => atStep _ _) (Nat.zero_le moment)

end Trace

/-- A measure that never grows is at each later moment at most what it
was. -/
theorem measure_le_of_le {measure : ℕ → ℕ} {first : ℕ}
    (keeps : ∀ moment, first ≤ moment →
      measure (moment + 1) ≤ measure moment)
    {moment later : ℕ} (fromFirst : first ≤ moment) (order : moment ≤ later) :
    measure later ≤ measure moment := by
  induction later, order using Nat.le_induction with
  | base => exact Nat.le_refl _
  | succ later order inductionHypothesis =>
      exact (keeps later (fromFirst.trans order)).trans inductionHypothesis

/-- A measure that never grows, and drops whenever it is positive and a
recurring event fires, comes down to zero. -/
theorem exists_measure_eq_zero {measure : ℕ → ℕ} {fires : ℕ → Prop}
    {first : ℕ} (often : ∃ᶠ moment in atTop, fires moment)
    (keeps : ∀ moment, first ≤ moment →
      measure (moment + 1) ≤ measure moment)
    (drops : ∀ moment, first ≤ moment → fires moment → measure moment ≠ 0 →
      measure (moment + 1) < measure moment) :
    ∃ moment, first ≤ moment ∧ measure moment = 0 := by
  -- descend from any moment on, by the value that the measure has there
  suffices descend : ∀ bound moment, first ≤ moment →
      measure moment ≤ bound →
      ∃ later, first ≤ later ∧ measure later = 0 from
    descend (measure first) first (Nat.le_refl _) (Nat.le_refl _)
  intro bound
  induction bound with
  | zero =>
      intro moment after small
      exact ⟨moment, after, Nat.le_zero.mp small⟩
  | succ bound inductionHypothesis =>
      intro moment after small
      obtain ⟨next, order, fired⟩ := frequently_atTop.mp often moment
      have afterNext : first ≤ next := after.trans order
      have less : measure next ≤ measure moment :=
        measure_le_of_le keeps after order
      by_cases zero : measure next = 0
      · exact ⟨next, afterNext, zero⟩
      · refine inductionHypothesis (next + 1) (by omega) ?_
        have dropped : measure (next + 1) < measure next :=
          drops next afterNext fired zero
        omega

end Logic
end Spaceless
