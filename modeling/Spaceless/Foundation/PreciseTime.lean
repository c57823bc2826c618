import Spaceless.Foundation.Timer

/-!
# Arithmetic of time points

A normalised time point has less than a second of nanoseconds.  The operators
carry between the two fields; seconds are taken as integers, which is what
they are as long as they stay in the 64-bit range.
-/

namespace Spaceless
namespace Foundation
namespace PreciseTime

/-- Minus operation; what is borrowed is not added to the nanoseconds. -/
protected def sub (left right : PreciseTime) : PreciseTime :=
  let seconds := left.seconds - right.seconds
  let nanoseconds := left.nanoseconds - right.nanoseconds
  if left.nanoseconds < right.nanoseconds then
    { seconds := seconds - 1, nanoseconds := nanoseconds.natAbs }
  else
    { seconds := seconds, nanoseconds := nanoseconds }

instance : Sub PreciseTime := ⟨PreciseTime.sub⟩

/-- Multiple operation, with divisions that truncate. -/
protected def mul (time : PreciseTime) (n : Int) : PreciseTime :=
  let seconds := time.seconds * n
  let nanoseconds := time.nanoseconds * n
  if nanoseconds ≥ nanosecondsOfSecond then
    { seconds := seconds + nanoseconds.tdiv nanosecondsOfSecond
      nanoseconds := nanoseconds.tmod nanosecondsOfSecond }
  else
    { seconds := seconds, nanoseconds := nanoseconds }

instance : HMul PreciseTime Int PreciseTime := ⟨PreciseTime.mul⟩

/-- All nanoseconds of a time point. -/
def total (time : PreciseTime) : Int :=
  time.seconds * nanosecondsOfSecond + time.nanoseconds

def Normalised (time : PreciseTime) : Prop :=
  0 ≤ time.nanoseconds ∧ time.nanoseconds < nanosecondsOfSecond

instance (time : PreciseTime) : Decidable time.Normalised :=
  inferInstanceAs (Decidable (_ ∧ _))

/-- A normalised time point with the total. -/
def Represents (time : PreciseTime) (nanoseconds : Int) : Prop :=
  time.Normalised ∧ time.total = nanoseconds

end PreciseTime

/-- A time point whose nanoseconds are less than a second. -/
structure NormalTime extends PreciseTime where
  normalised : toPreciseTime.Normalised

namespace NormalTime

open PreciseTime

theorem bounds (time : NormalTime) :
    0 ≤ time.nanoseconds ∧ time.nanoseconds < 1000000000 :=
  time.normalised

/-- Normalised time points with one total are equal. -/
theorem eq_of_total_eq {first second : PreciseTime}
    (normalFirst : first.Normalised) (normalSecond : second.Normalised)
    (same : first.total = second.total) : first = second := by
  obtain ⟨firstSeconds, firstNanoseconds⟩ := first
  obtain ⟨secondSeconds, secondNanoseconds⟩ := second
  unfold Normalised nanosecondsOfSecond at normalFirst normalSecond
  unfold total nanosecondsOfSecond at same
  dsimp only at normalFirst normalSecond same
  have seconds : firstSeconds = secondSeconds := by omega
  have nanoseconds : firstNanoseconds = secondNanoseconds := by omega
  rw [seconds, nanoseconds]

theorem add_represents (left right : NormalTime) :
    (left.toPreciseTime + right.toPreciseTime).Represents
      (left.total + right.total) := by
  have leftBounds := left.bounds
  have rightBounds := right.bounds
  change (PreciseTime.add _ _).Represents _
  unfold PreciseTime.add nanosecondsOfSecond
  dsimp only
  split
  · refine ⟨⟨?_, ?_⟩, ?_⟩ <;> simp only [total, nanosecondsOfSecond] <;> omega
  · refine ⟨⟨?_, ?_⟩, ?_⟩ <;> simp only [total, nanosecondsOfSecond] <;> omega

theorem mul_represents (time : NormalTime) (n : Nat) :
    (time.toPreciseTime * (n : Int)).Represents (time.total * n) := by
  obtain ⟨⟨seconds, nanoseconds⟩, nonneg, below⟩ := time
  dsimp only at nonneg below
  have product : 0 ≤ nanoseconds * (n : Int) :=
    Int.mul_nonneg nonneg (Int.natCast_nonneg n)
  have spread : total ⟨seconds, nanoseconds⟩ * (n : Int) =
      seconds * n * nanosecondsOfSecond + nanoseconds * n := by
    unfold total
    dsimp only
    rw [Int.add_mul, Int.mul_right_comm]
  rw [spread]
  change (PreciseTime.mul _ _).Represents _
  unfold PreciseTime.mul
  dsimp only
  split
  · rw [Int.tdiv_eq_ediv_of_nonneg product, Int.tmod_eq_emod_of_nonneg product]
    refine ⟨⟨Int.emod_nonneg _ (by decide),
      Int.emod_lt_of_pos _ (by decide)⟩, ?_⟩
    have parts := Int.mul_ediv_add_emod (nanoseconds * n) nanosecondsOfSecond
    unfold total
    dsimp only
    rw [Int.add_mul, Int.mul_comm (_ / _), Int.add_assoc, parts]
  · next small => exact ⟨⟨product, Int.not_le.mp small⟩, rfl⟩

theorem less_iff_total (left right : NormalTime) :
    left.less right.toPreciseTime = true ↔ left.total < right.total := by
  have leftBounds := left.bounds
  have rightBounds := right.bounds
  rw [less_iff]
  unfold total nanosecondsOfSecond
  omega

/-- The difference is right without a borrow, and where the borrowed second is
twice what is missing. -/
theorem sub_represents_iff (left right : NormalTime) :
    (left.toPreciseTime - right.toPreciseTime).Represents
        (left.total - right.total) ↔
      right.nanoseconds ≤ left.nanoseconds ∨
        right.nanoseconds - left.nanoseconds = 500000000 := by
  have leftBounds := left.bounds
  have rightBounds := right.bounds
  change (PreciseTime.sub _ _).Represents _ ↔ _
  unfold PreciseTime.sub Represents Normalised total nanosecondsOfSecond
  split
  · dsimp only
    omega
  · dsimp only
    omega

/-- What the operators are there for; a difference is taken of a time point
and an earlier one. -/
structure Exact (left right : NormalTime) (n : Nat) : Prop where
  sum : (left.toPreciseTime + right.toPreciseTime).Represents
    (left.total + right.total)
  product : (left.toPreciseTime * (n : Int)).Represents (left.total * n)
  order : left.less right.toPreciseTime = true ↔ left.total < right.total
  difference : left.less right.toPreciseTime = false →
    (left.toPreciseTime - right.toPreciseTime).Represents
        (left.total - right.total) ∧
      left.toPreciseTime - right.toPreciseTime + right.toPreciseTime =
        left.toPreciseTime

theorem sub_add_cancel {left right : NormalTime}
    (represents : (left.toPreciseTime - right.toPreciseTime).Represents
      (left.total - right.total)) :
    left.toPreciseTime - right.toPreciseTime + right.toPreciseTime =
      left.toPreciseTime := by
  let difference : NormalTime :=
    ⟨left.toPreciseTime - right.toPreciseTime, represents.1⟩
  obtain ⟨normalised, sum⟩ := difference.add_represents right
  apply eq_of_total_eq normalised left.normalised
  rw [sum, show difference.total = left.total - right.total
    from represents.2]
  omega

/-- For all time points and factors, the operators are exact where the right
one is later, or no second is borrowed, or half a second is missing. -/
theorem exact_iff (left right : NormalTime) (n : Nat) :
    Exact left right n ↔
      left.less right.toPreciseTime = true ∨
        right.nanoseconds ≤ left.nanoseconds ∨
          right.nanoseconds - left.nanoseconds = 500000000 := by
  constructor
  · intro exact
    cases later : left.less right.toPreciseTime with
    | true => exact .inl rfl
    | false =>
        exact .inr ((sub_represents_iff left right).mp
          (exact.difference later).1)
  · intro either
    refine ⟨left.add_represents right, left.mul_represents n,
      left.less_iff_total right, ?_⟩
    intro notLess
    have represents := (sub_represents_iff left right).mpr
      (either.resolve_left (Bool.eq_false_iff.mp notLess))
    exact ⟨represents, sub_add_cancel represents⟩

/-- The difference of 1.2 and 0.9 seconds is computed as 0.7 seconds. -/
theorem not_exact_always : ¬∀ left right n, Exact left right n := by
  intro always
  have exact := always ⟨⟨1, 200000000⟩, by decide⟩
    ⟨⟨0, 900000000⟩, by decide⟩ 1
  have total := (exact.difference (by decide)).1.2
  exact absurd total (by decide)

end NormalTime

end Foundation
end Spaceless
