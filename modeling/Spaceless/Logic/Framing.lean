import Mathlib.Tactic.Common

/-!
# Streams of frames

A stream is one frame after another.  What was read of it so far is some whole
frames and a part of the next one, however it was cut into pieces.
-/

namespace Spaceless
namespace Logic

/-- The items are the frames that are done and what is pending of the next
one. -/
structure Cut {α : Type} (frames done : List (List α))
    (pending items : List α) : Prop where
  within : done <+: frames
  taken : items = done.flatten ++ pending

namespace Cut

variable {α : Type} {frames done later : List (List α)}
  {frame pending items more : List α}

theorem start (frames : List (List α)) : Cut frames [] [] [] :=
  ⟨List.nil_prefix, rfl⟩

/-- The stream goes on. -/
theorem grow (cut : Cut frames done pending items)
    (later : List (List α)) : Cut (frames ++ later) done pending items :=
  ⟨cut.within.trans (List.prefix_append frames later), cut.taken⟩

theorem extend (cut : Cut frames done pending items) (more : List α) :
    Cut frames done (pending ++ more) (items ++ more) := by
  refine ⟨cut.within, ?_⟩
  rw [cut.taken, List.append_assoc]

/-- Items of the stream that follow continue what is pending. -/
theorem prefix_later (cut : Cut (done ++ later) done pending items)
    (expected : items ++ more <+: (done ++ later).flatten) :
    pending ++ more <+: later.flatten := by
  rw [cut.taken, List.flatten_append, List.append_assoc] at expected
  exact (List.prefix_append_right_inj _).mp expected

/-- What is pending lies in a next frame. -/
theorem exists_frame (cut : Cut frames done pending items)
    (expected : items ++ more <+: frames.flatten)
    (nonempty : pending ++ more ≠ []) :
    ∃ frame later, frames = done ++ frame :: later ∧
      pending ++ more <+: frame ++ later.flatten := by
  obtain ⟨rest, rfl⟩ := cut.within
  have within := cut.prefix_later expected
  cases rest with
  | nil => exact absurd (List.prefix_nil.mp within) nonempty
  | cons frame later => exact ⟨frame, later, rfl, within⟩

/-- A frame is done. -/
theorem finish (cut : Cut frames done pending items)
    (split : frames = done ++ frame :: later) (whole : pending = frame) :
    Cut frames (done ++ [frame]) [] items := by
  refine ⟨⟨later, ?_⟩, ?_⟩
  · rw [split, List.append_assoc]
    rfl
  · rw [cut.taken, whole]
    simp

/-- At the end of the stream all frames that are not done are pending. -/
theorem pending_eq (cut : Cut (done ++ later) done pending items)
    (whole : items = (done ++ later).flatten) :
    pending = later.flatten := by
  rw [cut.taken, List.flatten_append] at whole
  exact List.append_cancel_left whole

end Cut

end Logic
end Spaceless
