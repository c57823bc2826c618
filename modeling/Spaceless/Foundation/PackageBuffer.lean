import Mathlib.Algebra.Group.Nat.Defs
import Mathlib.Tactic.Common
import Spaceless.Foundation.Integer
import Spaceless.Logic.Action
import Spaceless.Logic.Content

/-!
# The receive buffer

A `PackageBuffer` starts on the stack and moves to the heap when a content
needs more space; its length doubles from 512 up to 65536 bytes.  The loop
that computes the new length works modulo `2 ^ 64`.
-/

namespace Spaceless
namespace Foundation

open Logic

def headerLen : Nat := 18

def stackBufferLen : Nat := 338

def firstHeapBufferLen : Nat := 512

def maxBufferLen : Nat := 65536

/-- The largest content of a package, `PackageBuffer::MAX_CONTENT_LEN`. -/
def maxContentLen : Nat := 65518

structure PackageHeader where
  version : Int
  command : Int
  contentLength : Int
  selfPackageId : Int
  triggerPackageId : Int
  deriving DecidableEq

/-- The header at the start of a buffer. -/
def PackageHeader.ofBytes (data : List UInt8) : PackageHeader where
  version := shortOfBytes (data.take 2)
  command := intOfBytes ((data.drop 2).take 4)
  contentLength := intOfBytes ((data.drop 6).take 4)
  selfPackageId := intOfBytes ((data.drop 10).take 4)
  triggerPackageId := intOfBytes ((data.drop 14).take 4)

/-- The header is read from its bytes only. -/
theorem PackageHeader.ofBytes_congr {first second : List UInt8}
    (same : first.take headerLen = second.take headerLen) :
    ofBytes first = ofBytes second := by
  have field : ∀ start length, start + length ≤ headerLen →
      (first.drop start).take length = (second.drop start).take length := by
    intro start length inside
    have both := congrArg (fun data => (data.drop start).take length) same
    simpa only [List.drop_take, List.take_take,
      Nat.min_eq_left (Nat.le_sub_of_add_le' inside)] using both
  unfold ofBytes
  rw [field 2 4 (by decide), field 6 4 (by decide), field 10 4 (by decide),
    field 14 4 (by decide), ← List.drop_zero (l := first),
    field 0 2 (by decide), List.drop_zero]

/-- The lengths that a buffer can have. -/
def Sized (length : Nat) : Prop :=
  length = stackBufferLen ∨
    ∃ exponent, 9 ≤ exponent ∧ exponent ≤ 16 ∧ length = 2 ^ exponent

/-- What can go wrong in `expect_content_length`: its loop never ends, or the
header is copied into a smaller array. -/
inductive BufferFault
  | endless
  | overrun
  deriving DecidableEq

/-- `m_data`, of the length `m_length`. -/
structure PackageBuffer where
  data : List UInt8
  sized : Sized data.length
  deriving DecidableEq

/-- The loop of `expect_content_length`: without a result it is still
running. -/
def growLength (contentLength : Nat) : Nat → Nat → Option Nat
  | 0, _ => none
  | fuel + 1, newLength =>
      if sizeSub newLength headerLen < contentLength then
        growLength contentLength fuel (newLength * 2 % 18446744073709551616)
      else some newLength

/-- The lengths that the loop passes through. -/
def doubled (newLength times : Nat) : Nat :=
  newLength * 2 ^ times % 18446744073709551616

theorem doubled_succ (newLength times : Nat) :
    doubled (newLength * 2 % 18446744073709551616) times =
      doubled newLength (times + 1) := by
  unfold doubled
  rw [Nat.mod_mul_mod, Nat.pow_succ', Nat.mul_assoc]

/-- The loop ends at the first length that is enough. -/
theorem growLength_eq_some {contentLength newLength times fuel : Nat}
    (below : newLength < 18446744073709551616)
    (short : ∀ earlier, earlier < times →
      sizeSub (doubled newLength earlier) headerLen < contentLength)
    (enough : contentLength ≤ sizeSub (doubled newLength times) headerLen)
    (fueled : times < fuel) :
    growLength contentLength fuel newLength =
      some (doubled newLength times) := by
  induction fuel generalizing newLength times with
  | zero => omega
  | succ fuel inductionHypothesis =>
      have start : doubled newLength 0 = newLength := by
        simp [doubled, Nat.mod_eq_of_lt below]
      unfold growLength
      cases times with
      | zero =>
          rw [start] at enough ⊢
          rw [if_neg (Nat.not_lt.mpr enough)]
      | succ times =>
          have first := short 0 (Nat.succ_pos times)
          rw [start] at first
          rw [← doubled_succ] at enough ⊢
          rw [if_pos first]
          refine inductionHypothesis (Nat.mod_lt _ (by decide)) ?_ enough
            (by omega)
          intro earlier before
          rw [doubled_succ]
          exact short (earlier + 1) (by omega)

/-- The loop goes on as long as no length is enough. -/
theorem growLength_eq_none {contentLength newLength fuel : Nat}
    (below : newLength < 18446744073709551616)
    (short : ∀ earlier, earlier < fuel →
      sizeSub (doubled newLength earlier) headerLen < contentLength) :
    growLength contentLength fuel newLength = none := by
  induction fuel generalizing newLength with
  | zero => rfl
  | succ fuel inductionHypothesis =>
      have start : doubled newLength 0 = newLength := by
        simp [doubled, Nat.mod_eq_of_lt below]
      have first := short 0 (Nat.succ_pos fuel)
      rw [start] at first
      unfold growLength
      rw [if_pos first]
      refine inductionHypothesis (Nat.mod_lt _ (by decide)) ?_
      intro earlier before
      rw [doubled_succ]
      exact short (earlier + 1) (by omega)

/-- Where the loop ends. -/
theorem doubled_of_growLength {contentLength newLength fuel result : Nat}
    (below : newLength < 18446744073709551616)
    (grown : growLength contentLength fuel newLength = some result) :
    ∃ times, result = doubled newLength times := by
  induction fuel generalizing newLength with
  | zero => cases grown
  | succ fuel inductionHypothesis =>
      unfold growLength at grown
      split at grown
      · obtain ⟨times, same⟩ :=
          inductionHypothesis (Nat.mod_lt _ (by decide)) grown
        exact ⟨times + 1, by rw [same, doubled_succ]⟩
      · cases grown
        exact ⟨0, by simp [doubled, Nat.mod_eq_of_lt below]⟩

/-- A length of the loop is a power of two until it wraps to zero. -/
theorem doubled_pow (exponent times : Nat) :
    doubled (2 ^ exponent) times =
      if exponent + times < 64 then 2 ^ (exponent + times) else 0 := by
  unfold doubled
  rw [← Nat.pow_add]
  split
  · rename_i small
    exact Nat.mod_eq_of_lt
      (Nat.pow_lt_pow_right (n := 64) (by decide) small)
  · rename_i large
    obtain ⟨more, same⟩ := Nat.exists_eq_add_of_le (Nat.not_lt.mp large)
    rw [same, Nat.pow_add]
    exact Nat.mul_mod_right _ _

theorem pow_bounds {exponent : Nat} (above : 9 ≤ exponent)
    (below : exponent < 64) :
    512 ≤ 2 ^ exponent ∧ 2 ^ exponent ≤ 9223372036854775808 :=
  ⟨Nat.pow_le_pow_right (i := 9) Nat.two_pos above,
    Nat.pow_le_pow_right (j := 63) Nat.two_pos (by omega)⟩

/-- From a power of two the loop ends at a power of two with enough space, if
there is one. -/
theorem growLength_pow {contentLength exponent bound : Nat} (fuel : Nat)
    (above : 9 ≤ exponent) (le : exponent ≤ bound) (below : bound < 64)
    (enough : contentLength + headerLen ≤ 2 ^ bound)
    (fueled : bound - exponent < fuel) :
    ∃ final, final ≤ bound ∧ contentLength + headerLen ≤ 2 ^ final ∧
      growLength contentLength fuel (2 ^ exponent) = some (2 ^ final) := by
  induction fuel generalizing exponent with
  | zero => omega
  | succ fuel inductionHypothesis =>
      have bounds := pow_bounds above (by omega)
      have usable : sizeSub (2 ^ exponent) headerLen =
          2 ^ exponent - headerLen :=
        sizeSub_of_le (by unfold headerLen; omega) (by omega)
      unfold growLength
      rw [usable]
      unfold headerLen at enough ⊢
      by_cases short : 2 ^ exponent - 18 < contentLength
      · have before : exponent < bound := by
          rcases Nat.lt_or_eq_of_le le with before | rfl
          · exact before
          · omega
        have next := pow_bounds (Nat.le_succ_of_le above)
          (Nat.lt_of_le_of_lt before below)
        rw [if_pos short, ← Nat.pow_succ, Nat.mod_eq_of_lt (by omega)]
        exact inductionHypothesis (by omega) before (by omega)
      · rw [if_neg short]
        exact ⟨exponent, le, by omega, rfl⟩

theorem sizeSub_doubled_pow {exponent times : Nat} (above : 9 ≤ exponent) :
    sizeSub (doubled (2 ^ exponent) times) headerLen =
      if exponent + times < 64 then 2 ^ (exponent + times) - headerLen
      else 18446744073709551598 := by
  rw [doubled_pow]
  split
  · rename_i small
    have bounds := pow_bounds (Nat.le_add_right_of_le above) small
    exact sizeSub_of_le (by unfold headerLen; omega) (by omega)
  · rfl

/-- The loop ends at zero when no power of two below `2 ^ 64` is enough. -/
theorem growLength_wraps {contentLength exponent : Nat} (fuel : Nat)
    (more : 9 ≤ exponent) (less : exponent < 64)
    (above : 9223372036854775808 < contentLength + headerLen)
    (below : contentLength + headerLen ≤ 18446744073709551616)
    (fueled : 64 - exponent < fuel) :
    growLength contentLength fuel (2 ^ exponent) = some 0 := by
  have wrapped : doubled (2 ^ exponent) (64 - exponent) = 0 := by
    rw [doubled_pow, if_neg (by omega)]
  have bounds := pow_bounds more less
  rw [← wrapped]
  refine growLength_eq_some (by omega) ?_ ?_ fueled
  · intro earlier before
    have upper := pow_bounds (Nat.le_add_right_of_le more)
      (show exponent + earlier < 64 by omega)
    rw [sizeSub_doubled_pow more, if_pos (by omega)]
    unfold headerLen at above ⊢
    omega
  · rw [sizeSub_doubled_pow more, if_neg (by omega)]
    unfold headerLen at below
    omega

/-- The loop never ends when zero is not enough either. -/
theorem growLength_endless {contentLength exponent : Nat} (fuel : Nat)
    (more : 9 ≤ exponent) (less : exponent < 64)
    (above : 18446744073709551616 < contentLength + headerLen) :
    growLength contentLength fuel (2 ^ exponent) = none := by
  have bounds := pow_bounds more less
  refine growLength_eq_none (by omega) ?_
  intro earlier _
  rw [sizeSub_doubled_pow more]
  unfold headerLen at above ⊢
  split
  · rename_i small
    have upper := pow_bounds (Nat.le_add_right_of_le more) small
    omega
  · omega

/-- The length that the loop starts with. -/
def startLength (length : Nat) : Nat :=
  if length = stackBufferLen then firstHeapBufferLen else length

theorem startLength_of_sized {length : Nat} (sized : Sized length) :
    ∃ exponent, 9 ≤ exponent ∧ exponent ≤ 16 ∧
      startLength length = 2 ^ exponent ∧
      length ≤ 2 ^ exponent := by
  unfold startLength
  rcases sized with rfl | ⟨exponent, above, below, rfl⟩
  · exact ⟨9, by decide⟩
  · rw [if_neg]
    · exact ⟨exponent, above, below, rfl, Nat.le_refl _⟩
    · intro same
      have even : 2 ^ exponent % 4 = 0 := by
        obtain ⟨more, rfl⟩ := Nat.exists_eq_add_of_le above
        rw [Nat.pow_add]
        omega
      rw [same] at even
      exact absurd even (by decide)

/-- A new length that is not too large has space for the header, or is
zero. -/
theorem sized_of_growLength {contentLength length fuel newLength : Nat}
    (sized : Sized length)
    (grown : growLength contentLength fuel (startLength length) =
      some newLength)
    (small : ¬maxBufferLen < newLength) (large : ¬newLength < headerLen) :
    Sized newLength := by
  obtain ⟨exponent, above, below, start, -⟩ := startLength_of_sized sized
  rw [start] at grown
  obtain ⟨times, same⟩ := doubled_of_growLength
    (Nat.pow_lt_pow_right (n := 64) (by decide) (by omega)) grown
  rw [doubled_pow] at same
  split at same
  · refine Or.inr ⟨exponent + times, by omega, ?_, same⟩
    by_contra bigger
    have : 2 ^ 17 ≤ 2 ^ (exponent + times) :=
      Nat.pow_le_pow_right (by decide) (by omega)
    unfold maxBufferLen at small
    omega
  · unfold headerLen at large
    omega

namespace PackageBuffer

/-- The buffer on the stack. -/
def init : PackageBuffer where
  data := 2 :: List.replicate 337 0
  sized := Or.inl (by rw [List.length_cons, List.length_replicate]; rfl)

def length (buffer : PackageBuffer) : Nat := buffer.data.length

def header (buffer : PackageBuffer) : PackageHeader :=
  PackageHeader.ofBytes buffer.data

/-- Bytes are received into the buffer. -/
def write (buffer : PackageBuffer) (offset : Nat) (bytes : List UInt8)
    (fits : offset + bytes.length ≤ buffer.length) : PackageBuffer where
  data := Content.writeAt 0 buffer.data offset bytes
  sized := by
    rw [Content.length_writeAt fits]
    exact buffer.sized

/-- A heap buffer with the header of the old one.  The other bytes of a new
array are not read before they are written. -/
def reallocate (buffer : PackageBuffer) (newLength : Nat)
    (sized : Sized newLength) : PackageBuffer where
  data := (buffer.data.take headerLen ++
    List.replicate newLength 0).take newLength
  sized := by
    rwa [List.length_take, List.length_append, List.length_replicate,
      Nat.min_eq_left (Nat.le_add_left _ _)]

/-- The end of `expect_content_length`, with the new length of its loop. -/
def settle (buffer : PackageBuffer) (grown : Option Nat)
    (sized : ∀ newLength, grown = some newLength →
      ¬maxBufferLen < newLength → ¬newLength < headerLen →
      Sized newLength) :
    Except BufferFault Bool × PackageBuffer :=
  match grown with
  | none => (.error .endless, buffer)
  | some newLength =>
      if small : maxBufferLen < newLength then (.ok false, buffer)
      else if large : newLength < headerLen then (.error .overrun, buffer)
      else
        (.ok true,
          buffer.reallocate newLength (sized newLength rfl small large))

/-- `expect_content_length`.  After 64 doublings the new length is zero and
stays zero, so a loop that is still running then never ends. -/
def expectContentLength (contentLength : Nat) :
    Action BufferFault PackageBuffer Bool := fun buffer =>
  if contentLength ≤ sizeSub buffer.length headerLen then (.ok true, buffer)
  else
    buffer.settle
      (growLength contentLength 66 (startLength buffer.length))
      fun _ => sized_of_growLength buffer.sized

theorem settle_none (buffer : PackageBuffer) {grown : Option Nat}
    {sized} (endless : grown = none) :
    buffer.settle grown sized = (.error .endless, buffer) := by
  subst endless
  rfl

theorem settle_tooLarge (buffer : PackageBuffer) {grown : Option Nat}
    {sized} {newLength : Nat} (found : grown = some newLength)
    (tooLarge : maxBufferLen < newLength) :
    buffer.settle grown sized = (.ok false, buffer) := by
  subst found
  exact dif_pos tooLarge

theorem settle_overrun (buffer : PackageBuffer) {grown : Option Nat}
    {sized} {newLength : Nat} (found : grown = some newLength)
    (small : newLength < headerLen) :
    buffer.settle grown sized = (.error .overrun, buffer) := by
  subst found
  have fits : ¬maxBufferLen < newLength := by
    unfold maxBufferLen
    unfold headerLen at small
    omega
  exact (dif_neg fits).trans (dif_pos small)

theorem settle_fits (buffer : PackageBuffer) {grown : Option Nat}
    {sized} {newLength : Nat} (found : grown = some newLength)
    (small : ¬maxBufferLen < newLength) (large : ¬newLength < headerLen) :
    buffer.settle grown sized =
      (.ok true, buffer.reallocate newLength
        (sized newLength found small large)) := by
  subst found
  exact (dif_neg small).trans (dif_neg large)

theorem length_bounds (buffer : PackageBuffer) :
    338 ≤ buffer.length ∧ buffer.length ≤ maxBufferLen := by
  unfold length maxBufferLen
  rcases buffer.sized with same | ⟨exponent, above, below, same⟩
  · rw [same]
    decide
  · rw [same]
    have lower := (pow_bounds above (by omega)).1
    have upper : 2 ^ exponent ≤ 2 ^ 16 :=
      Nat.pow_le_pow_right (by decide) below
    omega

theorem sizeSub_length (buffer : PackageBuffer) :
    sizeSub buffer.length headerLen = buffer.length - headerLen := by
  have bounds := buffer.length_bounds
  unfold maxBufferLen at bounds
  exact sizeSub_of_le (by unfold headerLen; omega) (by omega)

@[simp] theorem length_write (buffer : PackageBuffer) {offset : Nat}
    {bytes : List UInt8} (fits : offset + bytes.length ≤ buffer.length) :
    (buffer.write offset bytes fits).length = buffer.length :=
  Content.length_writeAt fits

theorem header_congr {first second : PackageBuffer}
    (same : first.data.take headerLen = second.data.take headerLen) :
    first.header = second.header :=
  PackageHeader.ofBytes_congr same

/-- A write behind the header keeps it. -/
theorem header_write (buffer : PackageBuffer) {offset : Nat}
    {bytes : List UInt8} (fits : offset + bytes.length ≤ buffer.length)
    (behind : headerLen ≤ offset) :
    (buffer.write offset bytes fits).header = buffer.header :=
  header_congr (Content.take_writeAt behind (by unfold length at fits; omega))

theorem length_reallocate (buffer : PackageBuffer) {newLength : Nat}
    (sized : Sized newLength) :
    (buffer.reallocate newLength sized).length = newLength := by
  unfold length reallocate
  rw [List.length_take, List.length_append, List.length_replicate,
    Nat.min_eq_left (Nat.le_add_left _ _)]

/-- A move to the heap keeps the header. -/
theorem take_reallocate (buffer : PackageBuffer) {newLength : Nat}
    (sized : Sized newLength) (large : ¬newLength < headerLen) :
    (buffer.reallocate newLength sized).data.take headerLen =
      buffer.data.take headerLen := by
  have bounds := buffer.length_bounds
  unfold length at bounds
  unfold reallocate
  dsimp only
  rw [List.take_take, Nat.min_eq_left (Nat.not_lt.mp large),
    List.take_append_of_le_length, List.take_take, Nat.min_self]
  rw [List.length_take]
  unfold headerLen
  omega

theorem exists_startLength (buffer : PackageBuffer) :
    ∃ exponent, 9 ≤ exponent ∧ exponent ≤ 16 ∧
      startLength buffer.length = 2 ^ exponent ∧
      buffer.length ≤ 2 ^ exponent :=
  startLength_of_sized buffer.sized

theorem not_enough (buffer : PackageBuffer) {contentLength : Nat}
    (tooLarge : 65518 < contentLength) :
    ¬contentLength ≤ sizeSub buffer.length headerLen := by
  have bounds := buffer.length_bounds
  unfold maxBufferLen at bounds
  rw [buffer.sizeSub_length]
  unfold headerLen
  omega

/-- Up to the maximum, the content gets its space and the header stays; a
buffer with enough space is not touched. -/
theorem expectContentLength_fits (buffer : PackageBuffer)
    {contentLength : Nat}
    (fits : contentLength ≤ maxContentLen) :
    ∃ later, expectContentLength contentLength buffer = (.ok true, later) ∧
      contentLength + headerLen ≤ later.length ∧
      later.data.take headerLen = buffer.data.take headerLen ∧
      (contentLength + headerLen ≤ buffer.length → later = buffer) := by
  unfold expectContentLength
  rw [buffer.sizeSub_length]
  by_cases enough : contentLength ≤ buffer.length - headerLen
  · rw [if_pos enough]
    have bounds := buffer.length_bounds
    unfold headerLen at enough ⊢
    exact ⟨buffer, rfl, by omega, rfl, fun _ => rfl⟩
  · rw [if_neg enough]
    obtain ⟨exponent, above, below, start, -⟩ := buffer.exists_startLength
    have small : contentLength + headerLen ≤ 2 ^ 16 := by
      unfold maxContentLen at fits
      unfold headerLen
      omega
    obtain ⟨final, least, space, grown⟩ :=
      growLength_pow 66 above below (by decide) small (by omega)
    rw [← start] at grown
    have upper : 2 ^ final ≤ 2 ^ 16 := Nat.pow_le_pow_right (by decide) least
    rw [settle_fits buffer grown (by unfold maxBufferLen; omega) (by omega)]
    refine ⟨_, rfl, ?_, take_reallocate _ _ (by omega), fun already => ?_⟩
    · rwa [length_reallocate]
    · exact absurd (Nat.le_sub_of_add_le already) enough

/-- More than the maximum, and no new length below `2 ^ 64` is needed. -/
theorem expectContentLength_tooLarge (buffer : PackageBuffer)
    {contentLength : Nat}
    (tooLarge : maxContentLen < contentLength)
    (below : contentLength + headerLen ≤ 9223372036854775808) :
    expectContentLength contentLength buffer = (.ok false, buffer) := by
  unfold maxContentLen at tooLarge
  unfold expectContentLength
  rw [if_neg (buffer.not_enough tooLarge)]
  obtain ⟨exponent, above, least, start, -⟩ := buffer.exists_startLength
  obtain ⟨final, -, space, grown⟩ :=
    growLength_pow 66 above (show exponent ≤ 63 by omega) (by decide) below
      (by omega)
  rw [← start] at grown
  refine settle_tooLarge buffer grown ?_
  unfold headerLen at space
  unfold maxBufferLen
  omega

/-- The new length wraps to zero, from which the header length is subtracted
modulo `2 ^ 64`. -/
theorem expectContentLength_overrun (buffer : PackageBuffer)
    {contentLength : Nat}
    (above : 9223372036854775808 < contentLength + headerLen)
    (below : contentLength + headerLen ≤ 18446744073709551616) :
    expectContentLength contentLength buffer =
      (.error .overrun, buffer) := by
  unfold expectContentLength
  rw [if_neg (buffer.not_enough (by unfold headerLen at above; omega))]
  obtain ⟨exponent, more, least, start, -⟩ := buffer.exists_startLength
  have grown := growLength_wraps 66 more (by omega) above below
    (by omega)
  rw [← start] at grown
  exact settle_overrun buffer grown (by decide)

/-- Not even zero is enough, and the loop does not end. -/
theorem expectContentLength_endless (buffer : PackageBuffer)
    {contentLength : Nat}
    (above : 18446744073709551616 < contentLength + headerLen) :
    expectContentLength contentLength buffer =
      (.error .endless, buffer) := by
  unfold expectContentLength
  rw [if_neg (buffer.not_enough (by unfold headerLen at above; omega))]
  obtain ⟨exponent, more, least, start, -⟩ := buffer.exists_startLength
  have grown := growLength_endless 66 more (by omega) above
  rw [← start] at grown
  exact settle_none buffer grown

/-! ## The answer -/

/-- The call ends and answers whether the content fits in the largest buffer;
then the buffer has the space and the same header, else it is left as it
is. -/
def MeetsExpectation (buffer : PackageBuffer) (contentLength : Nat) : Prop :=
  ∃ answer later,
    expectContentLength contentLength buffer = (.ok answer, later) ∧
      (answer = true ↔ contentLength ≤ maxContentLen) ∧
      (answer = true → contentLength ≤ later.length - headerLen ∧
        later.length ≤ maxBufferLen ∧
        later.data.take headerLen = buffer.data.take headerLen) ∧
      (answer = false → later = buffer)

theorem meetsExpectation_of_fits (buffer : PackageBuffer)
    {contentLength : Nat} (fits : contentLength ≤ maxContentLen) :
    MeetsExpectation buffer contentLength := by
  obtain ⟨later, answered, space, sameHeader, -⟩ :=
    buffer.expectContentLength_fits fits
  refine ⟨true, later, answered, ⟨fun _ => fits, fun _ => rfl⟩, ?_, ?_⟩
  · intro _
    exact ⟨Nat.le_sub_of_add_le space, later.length_bounds.2, sameHeader⟩
  · rintro ⟨⟩

theorem meetsExpectation_of_tooLarge (buffer : PackageBuffer)
    {contentLength : Nat} (tooLarge : maxContentLen < contentLength)
    (below : contentLength + headerLen ≤ 9223372036854775808) :
    MeetsExpectation buffer contentLength := by
  refine ⟨false, buffer, buffer.expectContentLength_tooLarge tooLarge below,
    ⟨?_, ?_⟩, ?_, fun _ => rfl⟩
  · rintro ⟨⟩
  · intro fits
    exact absurd fits (Nat.not_le.mpr tooLarge)
  · rintro ⟨⟩

/-- An answer does not come once the new length wraps. -/
theorem not_meetsExpectation_of_wraps (buffer : PackageBuffer)
    {contentLength : Nat}
    (above : 9223372036854775808 < contentLength + headerLen) :
    ¬MeetsExpectation buffer contentLength := by
  rintro ⟨answer, later, answered, -⟩
  by_cases below : contentLength + headerLen ≤ 18446744073709551616
  · rw [buffer.expectContentLength_overrun above below] at answered
    cases answered
  · rw [buffer.expectContentLength_endless (Nat.not_le.mp below)] at answered
    cases answered

/-- Every buffer answers exactly the lengths for which a power of two below
`2 ^ 64` is enough. -/
theorem meetsExpectation_iff (buffer : PackageBuffer) (contentLength : Nat) :
    MeetsExpectation buffer contentLength ↔
      contentLength + headerLen ≤ 9223372036854775808 := by
  constructor
  · intro meets
    by_contra wraps
    exact not_meetsExpectation_of_wraps buffer (Nat.not_le.mp wraps) meets
  · intro below
    by_cases fits : contentLength ≤ maxContentLen
    · exact meetsExpectation_of_fits buffer fits
    · exact meetsExpectation_of_tooLarge buffer (Nat.not_le.mp fits) below

/-- The content length `-1` of a header, as a `std::size_t`. -/
theorem not_meetsExpectation_always :
    ¬∀ buffer contentLength, contentLength < 18446744073709551616 →
      MeetsExpectation buffer contentLength := by
  intro always
  have wraps : 9223372036854775808 < 18446744073709551615 + headerLen := by
    decide
  exact not_meetsExpectation_of_wraps init wraps
    (always init 18446744073709551615 (by decide))

end PackageBuffer

end Foundation
end Spaceless
