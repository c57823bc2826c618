import Mathlib.Tactic.Linarith
import Mathlib.Tactic.Positivity
import Mathlib.Tactic.Ring
import Spaceless.Logic.Rounding

/-!
# Bounds of rounded values

A value is rounded to at most a whole number exactly up to half a unit in the
last place above that number, and whole numbers are rounded by division with
remainder.
-/

namespace Spaceless
namespace Logic

/-- Rounding gives at most an integer up to half above it, and with the half
where the integer is even. -/
theorem roundHalfEven_le_iff (value : ℚ) (bound : Int) :
    roundHalfEven value ≤ bound ↔
      value < bound + 1 / 2 ∨ value = bound + 1 / 2 ∧ bound % 2 = 0 := by
  have below := Int.floor_le value
  have above := Int.lt_floor_add_one value
  unfold roundHalfEven
  dsimp only
  generalize ⌊value⌋ = floor at below above ⊢
  rcases lt_trichotomy floor bound with less | rfl | more
  · have next : (floor : ℚ) + 1 ≤ bound := by exact_mod_cast less
    refine iff_of_true ?_ (Or.inl (by linarith))
    split_ifs <;> omega
  · split_ifs with low high even
    · exact iff_of_true le_rfl (Or.inl (by linarith))
    · refine iff_of_false (by omega) ?_
      rintro (less | ⟨same, -⟩) <;> linarith
    · refine iff_of_true le_rfl (Or.inr ⟨by linarith, even⟩)
    · refine iff_of_false (by omega) ?_
      rintro (less | ⟨-, even'⟩)
      · linarith
      · exact even even'
  · have next : (bound : ℚ) + 1 ≤ floor := by exact_mod_cast more
    refine iff_of_false ?_ ?_
    · split_ifs <;> omega
    · rintro (less | ⟨same, -⟩) <;> linarith

/-- An integer is rounded to itself. -/
theorem roundHalfEven_intCast (value : Int) :
    roundHalfEven (value : ℚ) = value := by
  simp [roundHalfEven]

/-- The unit in the last place of a value. -/
def unitOf (bits : Nat) (value : ℚ) : ℚ :=
  2 ^ (Int.log 2 value - (bits - 1 : Int))

theorem unitOf_pos (bits : Nat) (value : ℚ) : 0 < unitOf bits value := by
  exact zpow_pos (by norm_num) _

theorem roundToBits_of_pos {bits : Nat} {value : ℚ} (positive : 0 < value) :
    roundToBits bits value =
      roundHalfEven (value / unitOf bits value) * unitOf bits value := by
  rw [roundToBits, if_neg (not_le.mpr positive)]
  rfl

/-- A value is rounded to at most a multiple of its unit exactly where its
quotient is rounded to at most the factor. -/
theorem roundToBits_le_mul_iff {bits : Nat} {value : ℚ}
    (positive : 0 < value) (factor : Int) :
    roundToBits bits value ≤ factor * unitOf bits value ↔
      roundHalfEven (value / unitOf bits value) ≤ factor := by
  rw [roundToBits_of_pos positive,
    mul_le_mul_iff_of_pos_right (unitOf_pos bits value)]
  exact Int.cast_le

/-- Whole numbers are multiples of the units up to one. -/
theorem natCast_eq_mul_unitOf {bits : Nat} {value : ℚ} {shift : Nat}
    (shifted : Int.log 2 value + shift = (bits : Int) - 1) (count : Nat) :
    (count : ℚ) = ((count * 2 ^ shift : Int) : ℚ) * unitOf bits value := by
  have exponent : Int.log 2 value - ((bits : Int) - 1) = -(shift : Int) := by
    omega
  rw [unitOf, exponent, zpow_neg, zpow_natCast]
  push_cast
  rw [mul_assoc, mul_inv_cancel₀ (by positivity), mul_one]

/-- Half of the unit. -/
theorem unitOf_half (bits : Nat) (value : ℚ) :
    unitOf bits value / 2 = 2 ^ (Int.log 2 value - bits) := by
  have exponent : Int.log 2 value - ((bits : Int) - 1) =
      Int.log 2 value - bits + 1 := by omega
  rw [unitOf, exponent, zpow_add_one₀ (by norm_num)]
  ring

/-- A value is not rounded below its power of two. -/
theorem zpow_log_le_roundToBits {bits : Nat} {value : ℚ}
    (positive : 0 < value) (nonzero : 0 < bits) :
    2 ^ Int.log 2 value ≤ roundToBits bits value := by
  have unit := unitOf_pos bits value
  have power : (2 : ℚ) ^ Int.log 2 value =
      ((2 ^ (bits - 1) : Int) : ℚ) * unitOf bits value := by
    have exponent : Int.log 2 value = (bits - 1 : Nat) +
        (Int.log 2 value - ((bits : Int) - 1)) := by omega
    conv_lhs => rw [exponent]
    rw [unitOf, zpow_add₀ (by norm_num), zpow_natCast]
    push_cast
    rfl
  have bottom := Int.zpow_log_le_self (by norm_num : 1 < 2) positive
  push_cast at bottom
  rw [power, ← le_div_iff₀ unit] at bottom
  rw [power, roundToBits_of_pos positive,
    mul_le_mul_iff_of_pos_right unit]
  have reached : ¬roundHalfEven (value / unitOf bits value) ≤
      2 ^ (bits - 1) - 1 := by
    rw [roundHalfEven_le_iff]
    push_cast at bottom ⊢
    rintro (less | ⟨same, -⟩) <;> linarith
  exact_mod_cast Int.not_lt.mp fun less => reached (Int.le_sub_one_of_lt less)

/-- A value is rounded at most to a whole number of few bits exactly where it
is at most half a unit above that number. -/
theorem roundToBits_le_natCast_iff {bits count : Nat} {value : ℚ}
    (positive : 0 < value) (counts : 0 < count)
    (small : count < 2 ^ (bits - 1)) :
    roundToBits bits value ≤ count ↔
      value ≤ count + 2 ^ ((Nat.log 2 count : Int) - bits) := by
  have low : 2 ^ Nat.log 2 count ≤ count :=
    Nat.pow_log_le_self 2 counts.ne'
  have high : count < 2 ^ (Nat.log 2 count + 1) :=
    Nat.lt_pow_succ_log_self (by norm_num) count
  have fewer : Nat.log 2 count < bits - 1 := by
    apply (Nat.pow_lt_pow_iff_right (by norm_num : 1 < 2)).mp
    omega
  have bottom := Int.zpow_log_le_self (by norm_num : 1 < 2) positive
  have top := Int.lt_zpow_succ_log_self (by norm_num : 1 < 2) value
  push_cast at bottom top
  rcases le_or_gt (Int.log 2 value) (Nat.log 2 count) with within | beyond
  · -- the number is a multiple of the unit, by an even factor
    obtain ⟨shift, shifted⟩ : ∃ shift : Nat,
        Int.log 2 value + (shift + 1 : Nat) = (bits : Int) - 1 := by
      refine ⟨((bits : Int) - 2 - Int.log 2 value).toNat, ?_⟩
      omega
    have multiple := natCast_eq_mul_unitOf shifted count
    have even : (count * 2 ^ (shift + 1) : Int) % 2 = 0 := by
      rw [pow_succ, ← mul_assoc]
      exact Int.mul_emod_left _ _
    have half : roundToBits bits value ≤ count ↔
        value ≤ count + 2 ^ (Int.log 2 value - bits) := by
      have unit := unitOf_pos bits value
      conv_lhs => rw [multiple]
      rw [roundToBits_le_mul_iff positive, roundHalfEven_le_iff,
        and_iff_left even, ← le_iff_lt_or_eq, div_le_iff₀ unit, add_mul,
        ← multiple, ← unitOf_half]
      ring_nf
    rcases within.lt_or_eq with less | same
    · have under : value ≤ count := by
        calc value
            ≤ 2 ^ (Int.log 2 value + 1) := top.le
          _ ≤ 2 ^ (Nat.log 2 count : Int) :=
              zpow_le_zpow_right₀ (by norm_num) less
          _ ≤ count := by
              rw [zpow_natCast]
              exact_mod_cast low
      refine iff_of_true (half.mpr ?_) ?_
      · have := zpow_pos (by norm_num : (0 : ℚ) < 2)
          (Int.log 2 value - bits)
        linarith
      · have := zpow_pos (by norm_num : (0 : ℚ) < 2)
          ((Nat.log 2 count : Int) - bits)
        linarith
    · rw [half, same]
  · -- a power of two lies between the number and the value
    have above : (count : ℚ) + 1 ≤ 2 ^ Int.log 2 value := by
      calc (count : ℚ) + 1
          ≤ 2 ^ ((Nat.log 2 count : Int) + 1) := by
            exact_mod_cast high
        _ ≤ 2 ^ Int.log 2 value :=
            zpow_le_zpow_right₀ (by norm_num) beyond
    refine iff_of_false (not_le.mpr ?_) (not_le.mpr ?_)
    · have reached := zpow_log_le_roundToBits positive
        (by omega : 0 < bits)
      linarith
    · have small : (2 : ℚ) ^ ((Nat.log 2 count : Int) - bits) < 1 := by
        apply zpow_lt_one_of_neg₀ (by norm_num)
        omega
      linarith

/-! ## Whole numbers -/

/-- A whole number at the given number of significant bits: the nearest
multiple of its unit, the even one of two. -/
def roundNat (bits number : Nat) : Nat :=
  let unit := 2 ^ (Nat.log 2 number + 1 - bits)
  let quotient := number / unit
  let remainder := number % unit
  if 2 * remainder < unit ∨ 2 * remainder = unit ∧ quotient % 2 = 0 then
    quotient * unit
  else (quotient + 1) * unit

/-- Numbers of at most that many bits are kept. -/
theorem roundNat_eq_self {bits number : Nat}
    (small : Nat.log 2 number < bits) : roundNat bits number = number := by
  unfold roundNat
  have one : Nat.log 2 number + 1 - bits = 0 := by omega
  simp [one, Nat.mod_one]

/-- The nearest integer to a fraction, by division with remainder. -/
theorem roundHalfEven_div (number : Nat) {unit : Nat} (positive : 0 < unit) :
    roundHalfEven ((number : ℚ) / unit) =
      if 2 * (number % unit) < unit ∨
          2 * (number % unit) = unit ∧ number / unit % 2 = 0 then
        (number / unit : Nat)
      else (number / unit + 1 : Nat) := by
  have size : (0 : ℚ) < unit := by exact_mod_cast positive
  have split : (number : ℚ) / unit =
      (number / unit : Nat) + (number % unit : Nat) / (unit : ℚ) := by
    have whole : (unit * (number / unit) + number % unit : Nat) =
        (number : ℚ) := by rw [Nat.div_add_mod]
    rw [← whole]
    push_cast
    field_simp
  have remainder : (number % unit : Nat) < (unit : ℚ) := by
    exact_mod_cast Nat.mod_lt number positive
  have floor : ⌊(number : ℚ) / unit⌋ = (number / unit : Nat) := by
    rw [split, Int.floor_natCast_add, Int.floor_eq_zero_iff.mpr, add_zero]
    exact ⟨by positivity, (div_lt_one size).mpr remainder⟩
  have excess : (number : ℚ) / unit - ((number / unit : Nat) : Int) =
      (number % unit : Nat) / (unit : ℚ) := by
    rw [split, Int.cast_natCast]
    ring
  have low : (number % unit : Nat) / (unit : ℚ) < 1 / 2 ↔
      2 * (number % unit) < unit := by
    rw [div_lt_iff₀ size, one_div, inv_mul_eq_div, lt_div_iff₀ (by norm_num),
      mul_comm]
    exact_mod_cast Iff.rfl
  have high : 1 / 2 < (number % unit : Nat) / (unit : ℚ) ↔
      unit < 2 * (number % unit) := by
    rw [lt_div_iff₀ size, one_div, inv_mul_eq_div, div_lt_iff₀ (by norm_num),
      mul_comm _ (2 : ℚ)]
    exact_mod_cast Iff.rfl
  unfold roundHalfEven
  simp only [floor, excess, low, high]
  generalize number / unit = quotient
  generalize number % unit = rest
  split_ifs <;> omega

theorem roundToBits_natCast (bits number : Nat) :
    roundToBits bits number = roundNat bits number := by
  rcases Nat.eq_zero_or_pos number with rfl | positive
  · simp [roundToBits, roundNat]
  have value : (0 : ℚ) < number := by exact_mod_cast positive
  have log : Int.log 2 (number : ℚ) = Nat.log 2 number :=
    Int.log_natCast 2 number
  rw [roundToBits_of_pos value]
  rcases Nat.lt_or_ge (Nat.log 2 number) bits with few | many
  · obtain ⟨shift, shifted⟩ : ∃ shift : Nat,
        Int.log 2 (number : ℚ) + shift = (bits : Int) - 1 :=
      ⟨bits - 1 - Nat.log 2 number, by omega⟩
    have multiple := natCast_eq_mul_unitOf shifted number
    have quotient := (eq_div_iff (unitOf_pos bits number).ne').mpr
      multiple.symm
    rw [← quotient, roundHalfEven_intCast, ← multiple, roundNat_eq_self few]
  · have unit : unitOf bits number =
        (2 ^ (Nat.log 2 number + 1 - bits) : Nat) := by
      have exponent : Int.log 2 (number : ℚ) - ((bits : Int) - 1) =
          (Nat.log 2 number + 1 - bits : Nat) := by omega
      rw [unitOf, exponent, zpow_natCast]
      push_cast
      rfl
    rw [unit, roundHalfEven_div number (by positivity)]
    unfold roundNat
    dsimp only
    split_ifs <;> rw [Int.cast_natCast, Nat.cast_mul]

end Logic
end Spaceless
