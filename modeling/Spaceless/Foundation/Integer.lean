import Mathlib.Tactic.Common

/-!
# Fixed-width integers

Values of `int` and `std::size_t` (64 bits) are integers and natural numbers
in range; the casts between them and the little-endian layout of the package
header are explicit.
-/

namespace Spaceless
namespace Foundation

/-- `static_cast<std::size_t>` of an `int`. -/
def sizeOfInt (value : Int) : Nat := (value % 18446744073709551616).toNat

/-- `static_cast<int>` of a `std::size_t`: its low 32 bits in two's
complement. -/
def intOfSize (value : Nat) : Int :=
  if value % 4294967296 < 2147483648 then (value % 4294967296 : Nat)
  else (value % 4294967296 : Nat) - 4294967296

/-- Subtraction of `std::size_t`. -/
def sizeSub (first second : Nat) : Nat :=
  (first + 18446744073709551616 - second) % 18446744073709551616

/-- The value of little-endian bytes. -/
def natOfBytes : List UInt8 → Nat
  | [] => 0
  | byte :: bytes => byte.toNat + 256 * natOfBytes bytes

/-- The `int` that four bytes hold. -/
def intOfBytes (bytes : List UInt8) : Int := intOfSize (natOfBytes bytes)

/-- The `short` that two bytes hold. -/
def shortOfBytes (bytes : List UInt8) : Int :=
  if natOfBytes bytes < 32768 then natOfBytes bytes
  else natOfBytes bytes - 65536

/-- The little-endian bytes of a value. -/
def bytesOfNat : Nat → Nat → List UInt8
  | 0, _ => []
  | length + 1, value => UInt8.ofNat value :: bytesOfNat length (value / 256)

/-- An `int` as it lies in memory. -/
def bytesOfInt (value : Int) : List UInt8 := bytesOfNat 4 (sizeOfInt value)

/-- A `short` as it lies in memory. -/
def bytesOfShort (value : Int) : List UInt8 := bytesOfNat 2 (sizeOfInt value)

theorem sizeOfInt_of_nonneg {value : Int} (nonneg : 0 ≤ value)
    (below : value < 18446744073709551616) :
    sizeOfInt value = value.toNat := by
  unfold sizeOfInt
  omega

theorem sizeOfInt_of_neg {value : Int} (negative : value < 0)
    (above : -18446744073709551616 ≤ value) :
    sizeOfInt value = 18446744073709551616 - (-value).toNat := by
  unfold sizeOfInt
  omega

theorem intOfSize_of_lt {value : Nat} (below : value < 2147483648) :
    intOfSize value = value := by
  unfold intOfSize
  omega

theorem intOfSize_range (value : Nat) :
    -2147483648 ≤ intOfSize value ∧ intOfSize value < 2147483648 := by
  unfold intOfSize
  omega

/-- An `int` survives the way to `std::size_t` and back. -/
theorem intOfSize_sizeOfInt {value : Int} (above : -2147483648 ≤ value)
    (below : value < 2147483648) : intOfSize (sizeOfInt value) = value := by
  unfold intOfSize sizeOfInt
  omega

/-- An `int` is read back from its bytes. -/
theorem intOfBytes_bytesOfInt {value : Int} (above : -2147483648 ≤ value)
    (below : value < 2147483648) : intOfBytes (bytesOfInt value) = value := by
  simp only [intOfBytes, bytesOfInt, bytesOfNat, natOfBytes,
    UInt8.toNat_ofNat']
  unfold intOfSize sizeOfInt
  omega

/-- A `short` is read back from its bytes. -/
theorem shortOfBytes_bytesOfShort {value : Int} (above : -32768 ≤ value)
    (below : value < 32768) : shortOfBytes (bytesOfShort value) = value := by
  simp only [shortOfBytes, bytesOfShort, bytesOfNat, natOfBytes,
    UInt8.toNat_ofNat']
  unfold sizeOfInt
  omega

theorem sizeSub_of_le {first second : Nat} (le : second ≤ first)
    (below : first < 18446744073709551616) :
    sizeSub first second = first - second := by
  unfold sizeSub
  omega

end Foundation
end Spaceless
