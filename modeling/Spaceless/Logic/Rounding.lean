import Mathlib.Algebra.Order.Floor.Semiring
import Mathlib.Data.Int.Log
import Mathlib.Data.Rat.Floor

/-!
# Rounding to a number of significant bits

Rational arithmetic as a binary floating-point format of unbounded exponent
range does it: a positive value is rounded to the nearest multiple of its
unit in the last place, ties to even.
-/

namespace Spaceless
namespace Logic

/-- The nearest integer, the even one of two that are equally near. -/
def roundHalfEven (value : ℚ) : Int :=
  let below := ⌊value⌋
  let excess := value - below
  if excess < 1 / 2 then below
  else if 1 / 2 < excess then below + 1
  else if below % 2 = 0 then below
  else below + 1

/-- A nonnegative value at the given number of significant bits. -/
def roundToBits (bits : Nat) (value : ℚ) : ℚ :=
  if value ≤ 0 then 0
  else
    let unit : ℚ := 2 ^ (Int.log 2 value - (bits - 1 : Int))
    roundHalfEven (value / unit) * unit

end Logic
end Spaceless
