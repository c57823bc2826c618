import Mathlib.Tactic.Common

/-!
# Reading and writing a sequence at a position

A sequence is written in place: items before and after the written range stay,
and a gap between the old end and the position is filled.  One lookup lemma
for each part of the result says all that a write does.
-/

namespace Spaceless
namespace Logic
namespace Content

variable {α : Type}

/-- Write `items` from a position on; a gap after the old end is filled. -/
def writeAt (filler : α) (content : List α) (position : Nat)
    (items : List α) : List α :=
  if items.isEmpty then content
  else
    content.take position ++
      (List.replicate (position - content.length) filler ++
        (items ++ content.drop (position + items.length)))

/-- Read at most `length` items from a position on. -/
def readAt (content : List α) (position length : Nat) : List α :=
  (content.drop position).take length

@[simp] theorem writeAt_nil
    (filler : α) (content : List α) (position : Nat) :
    writeAt filler content position [] = content := rfl

theorem writeAt_of_ne_nil
    {filler : α} {content items : List α} {position : Nat}
    (nonempty : items ≠ []) :
    writeAt filler content position items =
      content.take position ++
        (List.replicate (position - content.length) filler ++
          (items ++ content.drop (position + items.length))) := by
  rw [writeAt, if_neg]
  simpa using nonempty

/-- A write that begins inside the content or just behind it. -/
theorem writeAt_of_le
    (filler : α) {content : List α} {position : Nat} (items : List α)
    (inside : position ≤ content.length) :
    writeAt filler content position items =
      content.take position ++
        (items ++ content.drop (position + items.length)) := by
  by_cases nonempty : items = []
  · simp [nonempty]
  · rw [writeAt_of_ne_nil nonempty, Nat.sub_eq_zero_of_le inside,
      List.replicate_zero, List.nil_append]

theorem writeAt_before
    {filler : α} {content items : List α} {position index : Nat}
    (before : index < position) (inside : index < content.length) :
    (writeAt filler content position items)[index]? = content[index]? := by
  by_cases nonempty : items = []
  · rw [nonempty, writeAt_nil]
  · rw [writeAt_of_ne_nil nonempty, List.getElem?_append_left (by
    simp only [List.length_take]
    omega),
      List.getElem?_take_of_lt before]

theorem writeAt_gap
    {filler : α} {content items : List α} {position index : Nat}
    (nonempty : items ≠ []) (before : index < position)
    (outside : content.length ≤ index) :
    (writeAt filler content position items)[index]? = some filler := by
  rw [writeAt_of_ne_nil nonempty,
    List.getElem?_append_right (by
      simp only [List.length_take]
      omega),
    List.getElem?_append_left (by
      simp only [List.length_take, List.length_replicate]
      omega)]
  rw [List.getElem?_replicate, if_pos]
  simp only [List.length_take]
  omega

theorem writeAt_inside
    {filler : α} {content items : List α} {position index : Nat}
    (inside : index < items.length) :
    (writeAt filler content position items)[position + index]? =
      items[index]? := by
  have nonempty : items ≠ [] := by
    rintro rfl
    simp at inside
  rw [writeAt_of_ne_nil nonempty,
    List.getElem?_append_right (by
      simp only [List.length_take]
      omega),
    List.getElem?_append_right (by
      simp only [List.length_take, List.length_replicate]
      omega),
    List.getElem?_append_left (by
      simp only [List.length_take, List.length_replicate]
      omega)]
  congr 1
  simp only [List.length_take, List.length_replicate]
  omega

theorem writeAt_after
    {filler : α} {content items : List α} {position index : Nat}
    (after : position + items.length ≤ index) :
    (writeAt filler content position items)[index]? = content[index]? := by
  by_cases nonempty : items = []
  · rw [nonempty, writeAt_nil]
  · rw [writeAt_of_ne_nil nonempty,
      List.getElem?_append_right (by
        simp only [List.length_take]
        omega),
      List.getElem?_append_right (by
        simp only [List.length_take, List.length_replicate]
        omega),
      List.getElem?_append_right (by
        simp only [List.length_take, List.length_replicate]
        omega),
      List.getElem?_drop]
    congr 1
    simp only [List.length_take, List.length_replicate]
    omega

/-- Where an item after a write comes from: the old content, the items, or
the gap. -/
theorem origin_of_writeAt
    {filler : α} {content items : List α} {position index : Nat} {item : α}
    (present : (writeAt filler content position items)[index]? = some item) :
    content[index]? = some item ∨
      (∃ offset, index = position + offset ∧ items[offset]? = some item) ∨
      index < position ∧ item = filler := by
  by_cases nonempty : items = []
  · rw [nonempty, writeAt_nil] at present
    exact Or.inl present
  · by_cases before : index < position
    · by_cases inside : index < content.length
      · rw [writeAt_before before inside] at present
        exact Or.inl present
      · rw [writeAt_gap nonempty before (by omega)] at present
        exact Or.inr (Or.inr ⟨before, (Option.some.inj present).symm⟩)
    · obtain ⟨offset, rfl⟩ := Nat.exists_eq_add_of_le (Nat.le_of_not_lt before)
      by_cases inside : offset < items.length
      · rw [writeAt_inside inside] at present
        exact Or.inr (Or.inl ⟨offset, rfl, present⟩)
      · rw [writeAt_after (by omega)] at present
        exact Or.inl present

/-- A write inside the content keeps its length. -/
theorem length_writeAt
    {filler : α} {content items : List α} {position : Nat}
    (inside : position + items.length ≤ content.length) :
    (writeAt filler content position items).length = content.length := by
  by_cases nonempty : items = []
  · rw [nonempty, writeAt_nil]
  · rw [writeAt_of_ne_nil nonempty]
    simp only [List.length_append, List.length_take, List.length_replicate,
      List.length_drop]
    omega

/-- What lies before the position stays. -/
theorem take_writeAt
    {filler : α} {content items : List α} {position count : Nat}
    (before : count ≤ position) (inside : position ≤ content.length) :
    (writeAt filler content position items).take count =
      content.take count := by
  by_cases nonempty : items = []
  · rw [nonempty, writeAt_nil]
  · rw [writeAt_of_ne_nil nonempty, List.take_append_of_le_length,
      List.take_take, Nat.min_eq_left before]
    rw [List.length_take]
    omega

/-- A write just behind the first items, as far as it goes. -/
theorem take_writeAt_end
    {filler : α} {content items : List α} {position : Nat}
    (inside : position ≤ content.length) :
    (writeAt filler content position items).take (position + items.length) =
      content.take position ++ items := by
  rw [writeAt_of_le filler items inside, ← List.append_assoc]
  apply List.take_left'
  rw [List.length_append, List.length_take, Nat.min_eq_left inside]

/-- Writing at the start of an empty content. -/
theorem writeAt_empty (filler : α) (items : List α) :
    writeAt filler [] 0 items = items := by
  by_cases nonempty : items = []
  · rw [nonempty, writeAt_nil]
  · simp [writeAt_of_ne_nil nonempty]

@[simp] theorem readAt_nil (position length : Nat) :
    readAt ([] : List α) position length = [] := by
  simp [readAt]

theorem length_readAt
    (content : List α) (position length : Nat) :
    (readAt content position length).length =
      min length (content.length - position) := by
  simp [readAt]

theorem getElem?_readAt
    {content : List α} {position length index : Nat}
    (inside : index < length) :
    (readAt content position length)[index]? =
      content[position + index]? := by
  rw [readAt, List.getElem?_take_of_lt inside, List.getElem?_drop]

/-- Two reads one after another. -/
theorem readAt_add (content : List α) (position first second : Nat) :
    readAt content position (first + second) =
      readAt content position first ++
        readAt content (position + first) second := by
  simp only [readAt, List.take_add, List.drop_drop]

end Content

end Logic
end Spaceless
