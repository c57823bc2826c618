import Mathlib.Data.List.Sort

/-!
# Binary heaps in a vector

The heap algorithms of a standard library work on a vector whose elements are
arranged as a binary heap for a comparison; the front is an element before
which no other comes.  An implementation is known by its specification only:
what it keeps of the elements, and that it leaves a heap.
-/

namespace Spaceless
namespace Logic

variable {α : Type}

/-- A comparison that is a strict weak order. -/
structure StrictWeakOrder (comp : α → α → Bool) : Prop where
  irrefl : ∀ value, comp value value = false
  asymm : ∀ first second, comp first second = true →
    comp second first = false
  negTrans : ∀ first second third, comp first second = false →
    comp second third = false → comp first third = false

/-- No element is compared below its parent. -/
def IsHeap (comp : α → α → Bool) (values : List α) : Prop :=
  ∀ index parent value, 0 < index →
    values[(index - 1) / 2]? = some parent →
    values[index]? = some value → comp parent value = false

theorem isHeap_nil (comp : α → α → Bool) : IsHeap comp [] := by
  intro index parent value _ _ found
  simp at found

/-- The front of a heap is not compared below any element. -/
theorem IsHeap.front
    {comp : α → α → Bool} (order : StrictWeakOrder comp)
    {front : α} {rest : List α} (heap : IsHeap comp (front :: rest))
    {value : α} (member : value ∈ front :: rest) :
    comp front value = false := by
  obtain ⟨index, found⟩ := List.mem_iff_getElem?.mp member
  induction index using Nat.strongRecOn generalizing value with
  | ind index inductionHypothesis =>
      rcases Nat.eq_zero_or_pos index with rfl | positive
      · obtain rfl : front = value := by simpa using found
        exact order.irrefl front
      · have before : (index - 1) / 2 < index := by omega
        obtain ⟨parent, foundParent⟩ :
            ∃ parent, (front :: rest)[(index - 1) / 2]? = some parent := by
          have inside : index < (front :: rest).length :=
            (List.getElem?_eq_some_iff.mp found).1
          exact ⟨_, List.getElem?_eq_getElem (before.trans inside)⟩
        have above : comp front parent = false :=
          inductionHypothesis _ before (List.mem_of_getElem? foundParent)
            foundParent
        exact order.negTrans front parent value above
          (heap index parent value positive foundParent found)

/-- A vector without inversions is a heap. -/
theorem isHeap_of_pairwise
    {comp : α → α → Bool} {values : List α}
    (sorted : values.Pairwise fun first second =>
      comp first second = false) :
    IsHeap comp values := by
  intro index parent value positive foundParent found
  obtain ⟨parentInside, rfl⟩ := List.getElem?_eq_some_iff.mp foundParent
  obtain ⟨inside, rfl⟩ := List.getElem?_eq_some_iff.mp found
  apply List.pairwise_iff_getElem.mp sorted
  omega

/-- The algorithms of a standard library that a queue of timers uses, known by
their specifications. -/
structure HeapAlgorithms (comp : α → α → Bool) where
  /-- The elements that stay, and the values left behind them. -/
  removeIf : (α → Bool) → List α → List α × List α
  makeHeap : List α → List α
  pushHeap : List α → List α
  popHeap : List α → List α
  removeIf_kept : ∀ test values,
    (removeIf test values).1 = values.filter fun value => !test value
  removeIf_left : ∀ test values,
    (removeIf test values).2.length = values.countP test
  makeHeap_perm : ∀ values, (makeHeap values).Perm values
  makeHeap_isHeap : ∀ values, IsHeap comp (makeHeap values)
  pushHeap_perm : ∀ values value, IsHeap comp values →
    (pushHeap (values ++ [value])).Perm (values ++ [value])
  pushHeap_isHeap : ∀ values value, IsHeap comp values →
    IsHeap comp (pushHeap (values ++ [value]))
  /-- The front moves to the end. -/
  popHeap_last : ∀ front rest, IsHeap comp (front :: rest) →
    ∃ others, popHeap (front :: rest) = others ++ [front] ∧
      others.Perm rest ∧ IsHeap comp others

namespace HeapAlgorithms

variable {comp : α → α → Bool} (algorithms : HeapAlgorithms comp)

/-- Popping the back after a heap pop removes the front. -/
theorem dropLast_popHeap {front : α} {rest : List α}
    (heap : IsHeap comp (front :: rest)) :
    (algorithms.popHeap (front :: rest)).dropLast.Perm rest ∧
      IsHeap comp (algorithms.popHeap (front :: rest)).dropLast := by
  obtain ⟨others, popped, same, left⟩ :=
    algorithms.popHeap_last front rest heap
  rw [popped, List.dropLast_concat]
  exact ⟨same, left⟩

end HeapAlgorithms

/-! ## Keeping the vector sorted -/

section Sorted

variable (comp : α → α → Bool)

/-- The arrangement without inversions. -/
def arrange (values : List α) : List α :=
  values.insertionSort fun first second => comp first second = false

theorem arrange_perm (values : List α) : (arrange comp values).Perm values :=
  List.perm_insertionSort _ values

variable {comp}

theorem arrange_isHeap (order : StrictWeakOrder comp) (values : List α) :
    IsHeap comp (arrange comp values) := by
  apply isHeap_of_pairwise
  have total : Std.Total fun first second : α => comp first second = false :=
    ⟨fun first second => by
      cases below : comp first second with
      | false => exact Or.inl rfl
      | true => exact Or.inr (order.asymm first second below)⟩
  have transitive : IsTrans α fun first second => comp first second = false :=
    ⟨order.negTrans⟩
  exact List.pairwise_insertionSort _ values

/-- The algorithms that keep the vector sorted meet the specification. -/
def sortedHeap (order : StrictWeakOrder comp) : HeapAlgorithms comp where
  removeIf test values :=
    (values.filter fun value => !test value, values.filter test)
  makeHeap := arrange comp
  pushHeap := arrange comp
  popHeap
    | [] => []
    | front :: rest => arrange comp rest ++ [front]
  removeIf_kept _ _ := rfl
  removeIf_left _ _ := List.countP_eq_length_filter.symm
  makeHeap_perm := arrange_perm comp
  makeHeap_isHeap := arrange_isHeap order
  pushHeap_perm values value _ := arrange_perm comp (values ++ [value])
  pushHeap_isHeap values value _ := arrange_isHeap order (values ++ [value])
  popHeap_last _ rest _ :=
    ⟨arrange comp rest, rfl, arrange_perm comp rest, arrange_isHeap order rest⟩

end Sorted

end Logic
end Spaceless
