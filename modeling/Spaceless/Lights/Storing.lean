import Spaceless.Lights.BinaryFormat
import Spaceless.Lights.Filling

/-!
# What the binary format stores

Each argument that a placeholder takes is stored as one item.  An argument
that does not fit behind the header of a composed type, which is reserved
first, is left out.
-/

namespace Spaceless
namespace Lights

open Foundation

/-! ## Integers -/

theorem IntegerType.width_cases (type : IntegerType) :
    type.width = 1 ∨ type.width = 2 ∨ type.width = 4 ∨ type.width = 8 := by
  obtain ⟨isSigned, size, size_le⟩ := type
  match size, size_le with
  | 0, _ => exact .inl rfl
  | 1, _ => exact .inr (.inl rfl)
  | 2, _ => exact .inr (.inr (.inl rfl))
  | 3, _ => exact .inr (.inr (.inr rfl))

theorem length_bytesOfNat (length value : Nat) :
    (bytesOfNat length value).length = length := by
  induction length generalizing value with
  | zero => rfl
  | succ length ih => rw [bytesOfNat, List.length_cons, ih]

theorem natOfBytes_bytesOfNat (width value : Nat) :
    natOfBytes (bytesOfNat width value) = value % byteBound width := by
  induction width generalizing value with
  | zero => exact (Nat.mod_one value).symm
  | succ width ih =>
      rw [bytesOfNat, natOfBytes, ih, byteBound, Nat.mod_mul,
        UInt8.toNat_ofNat']

namespace Integer

theorem length_bytes (number : Integer) :
    number.bytes.length = number.type.width :=
  length_bytesOfNat _ _

@[ext] theorem ext {first second : Integer}
    (type : first.type = second.type) (value : first.value = second.value) :
    first = second := by
  cases first
  cases second
  cases type
  cases value
  rfl

/-- An integer is read back from its bytes. -/
theorem ofBytes_bytes (number : Integer) :
    ofBytes number.type number.bytes = number := by
  apply Integer.ext
  · rfl
  · obtain ⟨type, value, least, greatest⟩ := number
    unfold IntegerType.min at least
    unfold IntegerType.max at greatest
    unfold ofBytes bytes sizeOfInt
    dsimp only at least greatest ⊢
    rw [natOfBytes_bytesOfNat, ← IntegerType.modulus, Nat.mod_mod]
    have low : ((value % 18446744073709551616).toNat : Int) =
        value % 18446744073709551616 :=
      Int.toNat_of_nonneg (Int.emod_nonneg _ (by decide))
    generalize (value % 18446744073709551616).toNat = unsigned at low ⊢
    by_cases signed : type.isSigned = true
    · rw [if_pos signed] at least greatest
      simp only [signed, true_and]
      rcases type.modulus_cases with bound | bound | bound | bound <;>
        rw [bound] at least greatest ⊢ <;> split <;> omega
    · rw [if_neg signed] at least greatest
      rw [if_neg fun both => signed both.1]
      rcases type.modulus_cases with bound | bound | bound | bound <;>
        rw [bound] at greatest ⊢ <;> omega

/-- The value in the smallest type of its signedness. -/
def narrow (number : Integer) : Integer :=
  match above : number.type.size with
  | 0 => number
  | _ + 1 =>
      if fits : (number.type.smaller above).InRange number.value then
        narrow
          { type := number.type.smaller above, value := number.value
            inRange := fits }
      else number
termination_by number.type.size
decreasing_by
  exact Nat.lt_of_lt_of_eq (Nat.lt_succ_self _) above.symm

@[simp] theorem value_narrow (number : Integer) :
    number.narrow.value = number.value := by
  fun_induction narrow number with
  | case1 number smallest => rfl
  | case2 number size above fits ih => exact ih
  | case3 number size above exceeds => rfl

end Integer

theorem BinaryStoreWriter.insertInteger_eq (writer : BinaryStoreWriter)
    (number : Integer) :
    writer.insertInteger number = writer.appendInteger number.narrow := by
  fun_induction Integer.narrow number with
  | case1 number smallest =>
      rw [insertInteger]
      split
      · rfl
      · omega
  | case2 number size above fits ih =>
      rw [← ih, insertInteger]
      split
      · omega
      · rename_i other same
        cases Nat.succ.inj (above.symm.trans same)
        rw [dif_pos fits]
  | case3 number size above exceeds =>
      rw [insertInteger]
      split
      · rfl
      · rename_i other same
        cases Nat.succ.inj (above.symm.trans same)
        rw [dif_neg exceeds]

/-- The text of an integer depends on its value only. -/
theorem formatInteger_narrow (number : Integer) :
    formatInteger number.narrow = formatInteger number := by
  unfold formatInteger
  rw [number.absolute_eq, number.narrow.absolute_eq, number.value_narrow]

theorem formatNeedSpace_narrow (number : Integer) :
    formatNeedSpace number.narrow = formatNeedSpace number := by
  rw [← length_formatInteger, ← length_formatInteger, formatInteger_narrow]

/-! ## Items -/

namespace Argument

/-- The text of an argument. -/
def text : Argument → List UInt8
  | .bool true => literal ['t', 'r', 'u', 'e']
  | .bool false => literal ['f', 'a', 'l', 's', 'e']
  | .char value => [value]
  | .string value => value
  | .integer value => formatInteger value

/-- The item of a string. -/
def storedString : List UInt8 → List UInt8
  | [] => []
  | [character] => [BinaryTypeCode.char.value, character]
  | str => BinaryTypeCode.string.value :: UInt8.ofNat str.length :: str

theorem storedString_of_long {str : List UInt8} (long : 1 < str.length) :
    storedString str =
      BinaryTypeCode.string.value :: UInt8.ofNat str.length :: str := by
  match str with
  | first :: second :: str => rfl

/-- The item of an argument; there is none for an empty string. -/
def stored : Argument → List UInt8
  | .integer value =>
      (BinaryTypeCode.integer value.narrow.type).value :: value.narrow.bytes
  | argument => storedString argument.text

/-- A string has a length that an item can tell. -/
def Storable (argument : Argument) : Prop :=
  ∀ str, argument = .string str → str ≠ [] ∧ str.length ≤ 253

end Argument

/-- The length of the items of some arguments. -/
def storedLength (args : List Argument) : Nat :=
  (args.flatMap Argument.stored).length

namespace BinaryStoreWriter

theorem append_eq (writer : BinaryStoreWriter) (str : List UInt8) :
    writer.append str false =
      if Argument.storedString str = [] then writer
      else writer.pushIfFits (Argument.storedString str) := by
  match str with
  | [] => rfl
  | [character] => rfl
  | first :: second :: str => rfl

theorem insert_eq (writer : BinaryStoreWriter) (argument : Argument) :
    writer.insert argument =
      if argument.stored = [] then writer
      else writer.pushIfFits argument.stored := by
  cases argument with
  | bool value => cases value <;> rfl
  | char value => rfl
  | string value => exact writer.append_eq value
  | integer value => exact writer.insertInteger_eq value

/-- The argument finds room behind the header. -/
def HasRoom (writer : BinaryStoreWriter) (argument : Argument) : Prop :=
  writer.buffer.length + 3 + argument.stored.length ≤ writer.capacity.toNat

instance (writer : BinaryStoreWriter) (argument : Argument) :
    Decidable (writer.HasRoom argument) :=
  inferInstanceAs (Decidable (_ ≤ _))

/-- The value of one argument has one member at most, so the header is never
kept. -/
theorem addComposedType_eq {writer : BinaryStoreWriter}
    (idle : writer.state ≠ .started) (argument : Argument) :
    ∃ memberNum, writer.addComposedType argument =
      { writer with
        state := .ended
        composedMemberNum := memberNum
        buffer := writer.buffer ++
          if writer.HasRoom argument then argument.stored else [] } := by
  unfold addComposedType
  rw [if_neg idle]
  dsimp only
  have header : (composedHeader 0).length = 3 := rfl
  generalize starting : ({ writer with
    composedMemberNum := 0
    buffer := writer.buffer ++ composedHeader 0
    state := .started } : BinaryStoreWriter) = begun
  have same : begun.canAppend argument.stored.length ↔
      writer.HasRoom argument := by
    rw [← starting]
    unfold canAppend HasRoom
    rw [List.length_append, header]
  rw [insert_eq]
  by_cases item : argument.stored = []
  · refine ⟨0, ?_⟩
    rw [if_pos item, item, ite_self, ← starting]
    simp [header]
  · rw [if_neg item, pushIfFits]
    by_cases room : writer.HasRoom argument
    · refine ⟨1, ?_⟩
      have members := @List.drop_left _ (writer.buffer ++ composedHeader 0)
        argument.stored
      rw [List.length_append, header] at members
      rw [if_pos (same.mpr room), if_pos room, ← starting]
      simp [push, -List.append_assoc, members]
    · refine ⟨0, ?_⟩
      rw [if_neg (mt same.mp room), if_neg room, ← starting]
      simp [header]

end BinaryStoreWriter

/-! ## All arguments -/

/-- The arguments that find room in a buffer from that offset on. -/
def placed (capacity : Nat) : Nat → List Argument → List Argument
  | _, [] => []
  | offset, value :: args =>
      if offset + 3 + value.stored.length ≤ capacity then
        value :: placed capacity (offset + value.stored.length) args
      else placed capacity offset args

theorem storedLength_cons (value : Argument) (args : List Argument) :
    storedLength (value :: args) = value.stored.length + storedLength args :=
  List.length_append

theorem storedLength_singleton (value : Argument) :
    storedLength [value] = value.stored.length :=
  storedLength_cons value []

theorem storedLength_append (first second : List Argument) :
    storedLength (first ++ second) =
      storedLength first + storedLength second := by
  unfold storedLength
  rw [List.flatMap_append, List.length_append]

theorem placed_of_room {capacity offset : Nat} {args : List Argument}
    (room : offset + storedLength args + 3 ≤ capacity) :
    placed capacity offset args = args := by
  induction args generalizing offset with
  | nil => rfl
  | cons value args ih =>
      rw [storedLength_cons] at room
      rw [placed, if_pos (by omega), ih (by omega)]

theorem placed_append (capacity offset : Nat) (args more : List Argument) :
    placed capacity offset (args ++ more) =
      placed capacity offset args ++
        placed capacity
          (offset + storedLength (placed capacity offset args)) more := by
  induction args generalizing offset with
  | nil => rfl
  | cons value args ih =>
      rw [List.cons_append, placed, placed]
      split
      · rw [ih, storedLength_cons, Nat.add_assoc]
        rfl
      · exact ih offset

theorem BinaryStoreWriter.buffer_write {writer : BinaryStoreWriter}
    (idle : writer.state ≠ .started) (fmt : List UInt8)
    (args : List Argument) :
    (write fmt args writer).buffer = writer.buffer ++
      (placed writer.capacity.toNat writer.buffer.length
        (used fmt args)).flatMap Argument.stored := by
  induction args generalizing fmt writer with
  | nil => exact (List.append_nil _).symm
  | cons value args ih =>
      rw [write, used]
      split
      · obtain ⟨memberNum, added⟩ := addComposedType_eq idle value
        have ended : (writer.addComposedType value).state ≠ .started := by
          rw [added]
          intro started
          cases started
        rw [ih ended, added, placed]
        dsimp only
        by_cases room : writer.HasRoom value
        · have within : writer.buffer.length + 3 + value.stored.length ≤
            writer.capacity.toNat := room
          rw [if_pos room, if_pos within, List.length_append,
            List.append_assoc]
          rfl
        · have beyond : ¬writer.buffer.length + 3 + value.stored.length ≤
            writer.capacity.toNat := room
          rw [if_neg room, if_neg beyond, List.append_nil]
      · exact (List.append_nil _).symm

/-- The stored arguments of a format string in a new buffer. -/
def storedArgs (strTable : Option StringTable) (capacity : UInt64)
    (fmt : List UInt8) (args : List Argument) : List UInt8 :=
  (BinaryStoreWriter.write fmt args (.init capacity strTable)).buffer

theorem storedArgs_eq (strTable : Option StringTable) (capacity : UInt64)
    (fmt : List UInt8) (args : List Argument) :
    storedArgs strTable capacity fmt args =
      (placed capacity.toNat 0 (used fmt args)).flatMap Argument.stored := by
  have idle : (BinaryStoreWriter.init capacity strTable).state ≠ .started := by
    intro started
    cases started
  exact BinaryStoreWriter.buffer_write idle fmt args

end Lights
end Spaceless
