import Spaceless.Lights.Storing

/-!
# What the binary format restores

The text restored from the stored arguments is the text of the arguments,
where each string has a length that its item can tell and the header of a
composed type still fits before the last item.
-/

namespace Spaceless
namespace Lights

open Foundation

/-! ## One item -/

theorem readBytes_append (bytes more : List UInt8) :
    readBytes bytes.length (bytes ++ more) = some bytes := by
  unfold readBytes
  rw [if_pos (by rw [List.length_append]; omega), List.take_left]

theorem getTypeWidth_value (code : BinaryTypeCode) :
    getTypeWidth code.value = code.typeWidth := by
  unfold getTypeWidth
  rw [BinaryTypeCode.ofByte_value]

theorem TextWriter.insertInteger_narrow (writer : TextWriter)
    (number : Integer) :
    writer.insertInteger number.narrow = writer.insertInteger number := by
  unfold insertInteger
  simp only [formatNeedSpace_narrow, formatInteger_narrow]

namespace BinaryRestoreWriter

variable {strTable : Option StringTable}

theorem writeArgument_char (character : UInt8) (memory : List UInt8)
    (writer : TextWriter) :
    writeArgument strTable
        (BinaryTypeCode.char.value :: character :: memory) writer =
      some (2, writer.append [character]) := by
  rw [writeArgument, BinaryTypeCode.ofByte_value, getTypeWidth_value,
    ← writer.appendChar_eq]
  rfl

/-- The text of a string item is as long as its length byte tells. -/
theorem writeArgument_string (length : UInt8) {memory : List UInt8}
    (within : length.toNat ≤ memory.length) (writer : TextWriter) :
    writeArgument strTable
        (BinaryTypeCode.string.value :: length :: memory) writer =
      some (1 + length + 1, writer.append (memory.take length.toNat)) := by
  have read : readBytes length.toNat memory =
      some (memory.take length.toNat) := if_pos within
  rw [writeArgument, BinaryTypeCode.ofByte_value, getTypeWidth_value]
  simp only [List.head?_cons, List.drop_succ_cons, List.drop_zero,
    Option.bind_eq_bind, Option.bind_some, read]
  rfl

theorem writeArgument_integer (number : Integer) (memory : List UInt8)
    (writer : TextWriter) :
    writeArgument strTable
        ((BinaryTypeCode.integer number.type).value ::
          (number.bytes ++ memory)) writer =
      some (UInt8.ofNat number.type.width + 1,
        writer.insertInteger number) := by
  have read := readBytes_append number.bytes memory
  rw [number.length_bytes] at read
  rw [writeArgument, BinaryTypeCode.ofByte_value, getTypeWidth_value]
  simp only [Option.bind_eq_bind, Option.bind_some, read,
    number.ofBytes_bytes]
  rfl

/-- A string item is restored where its length fits in one byte together with
the width of the rest of the item. -/
theorem writeArgument_storedString {str : List UInt8} (nonempty : str ≠ [])
    (short : str.length ≤ 253) (memory : List UInt8) (writer : TextWriter) :
    writeArgument strTable (Argument.storedString str ++ memory) writer =
      some (UInt8.ofNat (Argument.storedString str).length,
        writer.append str) := by
  match str with
  | [character] => exact writeArgument_char character memory writer
  | first :: second :: str =>
      have length : (UInt8.ofNat (first :: second :: str).length).toNat =
          (first :: second :: str).length := by
        rw [UInt8.toNat_ofNat']
        omega
      change writeArgument strTable (BinaryTypeCode.string.value ::
        UInt8.ofNat (first :: second :: str).length ::
          (first :: second :: str ++ memory)) writer = _
      rw [writeArgument_string, length, List.take_left]
      · congr 2
        apply UInt8.toNat_inj.mp
        change _ = (UInt8.ofNat ((first :: second :: str).length + 2)).toNat
        have one : (1 : UInt8).toNat = 1 := rfl
        rw [UInt8.toNat_add, UInt8.toNat_add, length, UInt8.toNat_ofNat', one]
        omega
      · rw [length, List.length_append]
        exact Nat.le_add_right _ _

theorem writeArgument_stored {argument : Argument}
    (storable : argument.Storable) (memory : List UInt8)
    (writer : TextWriter) :
    writeArgument strTable (argument.stored ++ memory) writer =
      some (UInt8.ofNat argument.stored.length, writer.insert argument) := by
  cases argument with
  | bool value =>
      have nonempty : (Argument.bool value).text ≠ [] := by
        cases value <;> decide
      have short : (Argument.bool value).text.length ≤ 253 := by
        cases value <;> decide
      cases value <;>
        exact writeArgument_storedString nonempty short memory writer
  | char value =>
      rw [TextWriter.insert, TextWriter.appendChar_eq]
      exact writeArgument_char value memory writer
  | string value =>
      obtain ⟨nonempty, short⟩ := storable value rfl
      exact writeArgument_storedString nonempty short memory writer
  | integer value =>
      have width : (UInt8.ofNat value.narrow.type.width + 1 : UInt8) =
          UInt8.ofNat (value.narrow.bytes.length + 1) := by
        rw [value.narrow.length_bytes]
        rcases value.narrow.type.width_cases with bytes | bytes | bytes | bytes
          <;> rw [bytes] <;> rfl
      rw [TextWriter.insert, ← TextWriter.insertInteger_narrow]
      refine (writeArgument_integer value.narrow memory writer).trans ?_
      rw [width]
      rfl

end BinaryRestoreWriter

theorem Argument.length_stored_le {argument : Argument}
    (storable : argument.Storable) : argument.stored.length ≤ 255 := by
  cases argument with
  | bool value => cases value <;> decide
  | char value => exact Nat.le_of_ble_eq_true rfl
  | string value =>
      obtain ⟨nonempty, short⟩ := storable value rfl
      match value with
      | [character] => exact Nat.le_of_ble_eq_true rfl
      | first :: second :: str =>
          exact Nat.add_le_add_right short 2
  | integer value =>
      change value.narrow.bytes.length + 1 ≤ 255
      rw [value.narrow.length_bytes]
      rcases value.narrow.type.width_cases with bytes | bytes | bytes | bytes
        <;> rw [bytes] <;> decide

theorem Argument.stored_length_pos {argument : Argument}
    (nonempty : argument ≠ .string []) : 2 ≤ argument.stored.length := by
  cases argument with
  | bool value => cases value <;> decide
  | char value => exact Nat.le_refl 2
  | string value =>
      match value with
      | [] => exact absurd rfl nonempty
      | [character] => exact Nat.le_refl 2
      | first :: second :: str => exact Nat.le_add_left 2 _
  | integer value =>
      change 2 ≤ value.narrow.bytes.length + 1
      rw [value.narrow.length_bytes]
      rcases value.narrow.type.width_cases with bytes | bytes | bytes | bytes
        <;> rw [bytes] <;> decide

/-! ## All items -/

/-- Each string has a length that its item can tell, or 254 or 255 bytes when
no placeholder follows. -/
def Readable : List UInt8 → List Argument → Prop
  | _, [] => True
  | fmt, argument :: args =>
      let left := fmt.drop (placeholder fmt + 2)
      (argument.Storable ∨ ∃ str, argument = .string str ∧ 1 < str.length ∧
        str.length ≤ 255 ∧ left.length ≤ placeholder left) ∧
      Readable left args

theorem readable_of_storable {args : List Argument}
    (storable : ∀ argument ∈ args, argument.Storable) (fmt : List UInt8) :
    Readable fmt args := by
  induction args generalizing fmt with
  | nil => trivial
  | cons argument args ih =>
      refine ⟨Or.inl (storable argument List.mem_cons_self), ih ?_ _⟩
      exact fun other member => storable other (List.mem_cons_of_mem _ member)

theorem Readable.of_append {fmt : List UInt8} {args more : List Argument}
    (readable : Readable fmt (args ++ more)) : Readable fmt args := by
  induction args generalizing fmt with
  | nil => trivial
  | cons argument args ih => exact ⟨readable.1, ih readable.2⟩

namespace BinaryRestoreWriter

variable {strTable : Option StringTable}

/-- The items are taken at the placeholders of the arguments. -/
theorem writeBinary_of_takes {fmt : List UInt8} {items : List Argument}
    (takes : Takes fmt items)
    (storable : ∀ argument ∈ items, argument.Storable)
    {memory : List UInt8}
    (below : (items.flatMap Argument.stored ++ memory).length <
      18446744073709551616) (writer : TextWriter) :
    writeBinary strTable fmt (items.flatMap Argument.stored ++ memory)
        (items.flatMap Argument.stored ++ memory).length writer =
      writeBinary strTable (rest fmt items) memory memory.length
        (TextWriter.fill fmt items writer) := by
  induction items generalizing fmt writer with
  | nil => rfl
  | cons argument items ih =>
      have here := storable argument List.mem_cons_self
      have nonempty : argument ≠ .string [] := by
        intro empty
        exact (here [] empty).1 rfl
      have short := Argument.length_stored_le here
      have long := Argument.stored_length_pos nonempty
      have width : (UInt8.ofNat argument.stored.length).toNat =
          argument.stored.length := by
        rw [UInt8.toNat_ofNat']
        omega
      rw [List.flatMap_cons, List.append_assoc] at below ⊢
      rw [writeBinary, if_neg (by rw [List.length_append]; omega)]
      dsimp only
      rw [if_pos takes.1, writeArgument_stored here]
      simp only [Option.bind_eq_bind, Option.bind_some, width,
        List.drop_left]
      rw [sizeSub_of_le (by rw [List.length_append]; omega) below,
        List.length_append, Nat.add_sub_cancel_left]
      apply ih takes.2
      · intro other member
        exact storable other (List.mem_cons_of_mem _ member)
      · rw [List.length_append] at below
        omega

/-- Without a placeholder nothing is read. -/
theorem writeBinary_of_no_placeholder {fmt : List UInt8}
    (last : fmt.length ≤ placeholder fmt) (memory : List UInt8)
    (argsLength : Nat) (writer : TextWriter) :
    writeBinary strTable fmt memory argsLength writer =
      some (writer.append fmt) := by
  rw [writeBinary]
  split
  · rfl
  · dsimp only
    rw [List.take_of_length_le last, if_neg (Nat.not_lt.mpr last)]

/-- A string of 254 or 255 bytes is restored, but the width of its item is
not: no placeholder may follow. -/
theorem writeBinary_wide {fmt str : List UInt8}
    (found : placeholder fmt < fmt.length) (long : 1 < str.length)
    (byte : str.length ≤ 255)
    (last : (fmt.drop (placeholder fmt + 2)).length ≤
      placeholder (fmt.drop (placeholder fmt + 2)))
    (writer : TextWriter) :
    writeBinary strTable fmt (Argument.string str).stored
        (Argument.string str).stored.length writer =
      some (TextWriter.write fmt [.string str] writer) := by
  have length : (UInt8.ofNat str.length).toNat = str.length := by
    rw [UInt8.toNat_ofNat']
    omega
  have item : (Argument.string str).stored =
      BinaryTypeCode.string.value :: UInt8.ofNat str.length :: str :=
    Argument.storedString_of_long long
  rw [item, writeBinary, if_neg (by rw [List.length_cons]; omega)]
  dsimp only
  rw [if_pos found, writeArgument_string _ (Nat.le_of_eq length), length,
    List.take_length]
  simp only [Option.bind_eq_bind, Option.bind_some]
  rw [writeBinary_of_no_placeholder last, TextWriter.write, if_pos found]
  rfl

/-- Without an item too many, the text is that of the arguments. -/
theorem writeBinary_stored {fmt : List UInt8} {items : List Argument}
    (takes : Takes fmt items) (readable : Readable fmt items)
    (below : storedLength items < 18446744073709551616)
    (writer : TextWriter) :
    writeBinary strTable fmt (items.flatMap Argument.stored)
        (items.flatMap Argument.stored).length writer =
      some (TextWriter.write fmt items writer) := by
  induction items generalizing fmt writer with
  | nil =>
      rw [List.flatMap_nil, writeBinary, if_pos List.length_nil,
        TextWriter.write]
  | cons argument items ih =>
      rw [storedLength_cons] at below
      obtain ⟨here, others⟩ := readable
      rcases here with storable | ⟨str, rfl, long, byte, last⟩
      · have one := @writeBinary_of_takes strTable fmt [argument]
          ⟨takes.1, trivial⟩ (by simpa using storable)
          (items.flatMap Argument.stored) (by
            rw [List.flatMap_singleton, List.length_append]
            exact below) writer
        rw [List.flatMap_singleton] at one
        rw [List.flatMap_cons, one, TextWriter.write, if_pos takes.1]
        exact ih takes.2 others (by omega) _
      · cases items with
        | nil =>
            rw [List.flatMap_singleton]
            exact writeBinary_wide takes.1 long byte last writer
        | cons next items => exact absurd takes.2.1 (Nat.not_lt.mpr last)

end BinaryRestoreWriter

end Lights
end Spaceless
