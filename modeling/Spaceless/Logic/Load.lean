import Mathlib.Tactic.Common

/-!
# Loads that stay level

Where every piece of work goes to a place of the least load, loads that differ
by at most one go on to do so.  A load is a function on places, without a value
where there is no place.
-/

namespace Spaceless
namespace Logic

/-- The scan for an element of the lowest measure, which keeps the first one
that it meets. -/
def leastBy {α : Type} (measure : α → Int) (first : α) (rest : List α) : α :=
  rest.foldl (fun low element =>
    if measure element < measure low then element else low) first

theorem leastBy_le {α : Type} (measure : α → Int) (first : α)
    (rest : List α) : ∀ element ∈ first :: rest,
      measure (leastBy measure first rest) ≤ measure element := by
  induction rest generalizing first with
  | nil =>
      intro element member
      rw [List.mem_singleton] at member
      exact Int.le_of_eq (congrArg measure member.symm)
  | cons next rest inductionHypothesis =>
      have least := inductionHypothesis
        (if measure next < measure first then next else first)
      have chosen := least _ List.mem_cons_self
      change ∀ element ∈ first :: next :: rest, measure (leastBy measure
        (if measure next < measure first then next else first) rest) ≤
          measure element
      intro element member
      rcases List.mem_cons.mp member with rfl | later
      · split at chosen <;> split <;> omega
      · rcases List.mem_cons.mp later with rfl | member
        · split at chosen <;> split <;> omega
        · exact least element (List.mem_cons_of_mem _ member)

section Load

variable {κ : Type}

/-- The loads differ by at most one. -/
def Level (load : κ → Option Int) : Prop :=
  ∀ first second high low, load first = some high →
    load second = some low → high ≤ low + 1

/-- A place whose load is the least. -/
def IsLeast (load : κ → Option Int) (place : κ) : Prop :=
  ∃ low, load place = some low ∧
    ∀ other high, load other = some high → low ≤ high

/-- One more piece of work at a place. -/
def placeAt [DecidableEq κ] (place : κ) (load : κ → Option Int) (other : κ) :
    Option Int :=
  if place = other then (load other).map (· + 1) else load other

theorem level_of_equal {load : κ → Option Int}
    (equal : ∀ first second high low, load first = some high →
      load second = some low → high = low) : Level load := by
  intro first second high low atFirst atSecond
  rw [equal first second high low atFirst atSecond]
  omega

theorem Level.placeAt [DecidableEq κ] {load : κ → Option Int} {place : κ}
    (level : Level load) (least : IsLeast load place) :
    Level (placeAt place load) := by
  obtain ⟨low, atPlace, isLeast⟩ := least
  intro first second high other atFirst atSecond
  unfold Logic.placeAt at atFirst atSecond
  by_cases here : place = first <;> by_cases there : place = second
  · rw [if_pos here] at atFirst
    rw [if_pos there, ← there, here, atFirst] at atSecond
    cases atSecond
    omega
  · subst here
    rw [if_pos rfl, atPlace] at atFirst
    rw [if_neg there] at atSecond
    cases atFirst
    have := isLeast second other atSecond
    simp only
    omega
  · subst there
    rw [if_neg here] at atFirst
    rw [if_pos rfl, atPlace] at atSecond
    cases atSecond
    have := level first place high low atFirst atPlace
    simp only
    omega
  · rw [if_neg here] at atFirst
    rw [if_neg there] at atSecond
    exact level first second high other atFirst atSecond

end Load

end Logic
end Spaceless
