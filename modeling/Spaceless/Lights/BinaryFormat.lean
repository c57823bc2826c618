import Spaceless.Lights.Format

/-!
# The binary format

A `BinaryStoreWriter` stores the arguments of a format string as items, each
a type code and a value, and a `BinaryRestoreWriter` writes the text of the
format string with the stored items later.
-/

namespace Spaceless
namespace Lights

open Foundation

/-- The enumerators from `INT8_T` to `UINT64_T` go with the integer types. -/
inductive BinaryTypeCode
  | invalid
  | bool
  | char
  | string
  | integer (type : IntegerType)
  | composedType
  | stringRef
  | max

namespace BinaryTypeCode

/-- The value of an enumerator, for the integers as in `get_type_code`. -/
def value : BinaryTypeCode → UInt8
  | invalid => 0
  | bool => 1
  | char => 2
  | string => 3
  | integer type =>
      4 + UInt8.ofNat (type.size * 2) + if type.isSigned then 0 else 1
  | composedType => 12
  | stringRef => 13
  | max => 14

/-- The enumerator of a byte, if it is one. -/
def ofByte (byte : UInt8) : Option BinaryTypeCode :=
  match byte with
  | 0 => some invalid
  | 1 => some bool
  | 2 => some char
  | 3 => some string
  | 4 => some (integer ⟨true, 0, by decide⟩)
  | 5 => some (integer ⟨false, 0, by decide⟩)
  | 6 => some (integer ⟨true, 1, by decide⟩)
  | 7 => some (integer ⟨false, 1, by decide⟩)
  | 8 => some (integer ⟨true, 2, by decide⟩)
  | 9 => some (integer ⟨false, 2, by decide⟩)
  | 10 => some (integer ⟨true, 3, by decide⟩)
  | 11 => some (integer ⟨false, 3, by decide⟩)
  | 12 => some composedType
  | 13 => some stringRef
  | 14 => some max
  | _ => none

/-- `get_type_width`. -/
def typeWidth : BinaryTypeCode → UInt8
  | invalid => 0
  | bool => 1
  | char => 1
  | string => 1
  | integer type => UInt8.ofNat type.width
  | composedType => 2
  | stringRef => 4
  | max => 0

theorem ofByte_value (code : BinaryTypeCode) :
    ofByte code.value = some code := by
  cases code with
  | integer type =>
      obtain ⟨isSigned, size, size_le⟩ := type
      match isSigned, size, size_le with
      | true, 0, _ => rfl
      | false, 0, _ => rfl
      | true, 1, _ => rfl
      | false, 1, _ => rfl
      | true, 2, _ => rfl
      | false, 2, _ => rfl
      | true, 3, _ => rfl
      | false, 3, _ => rfl
  | _ => rfl

end BinaryTypeCode

/-- `get_type_width` of a byte of the stored arguments. -/
def getTypeWidth (byte : UInt8) : UInt8 :=
  match BinaryTypeCode.ofByte byte with
  | some code => code.typeWidth
  | none => 0

/-- The strings of a `StringTable` by their indices. -/
abbrev StringTable := List (List UInt8)

namespace StringTable

/-- `get_index`: a string that is not in the table is added. -/
def getIndex (table : StringTable) (str : List UInt8) :
    Nat × StringTable :=
  match table.idxOf? str with
  | some index => (index, table)
  | none => (table.length, table ++ [str])

def getStr (table : StringTable) (index : Nat) : Option (List UInt8) :=
  table[index]?

end StringTable

/-! ## Integers in memory -/

/-- An integer as it lies in memory. -/
def Integer.bytes (number : Integer) : List UInt8 :=
  bytesOfNat number.type.width (sizeOfInt number.value)

/-- The integer that the bytes hold. -/
def Integer.ofBytes (type : IntegerType) (bytes : List UInt8) :
    Integer where
  type := type
  value :=
    let unsigned := natOfBytes bytes % type.modulus
    if type.isSigned ∧ type.modulus / 2 ≤ unsigned then
      (unsigned : Int) - type.modulus
    else unsigned
  inRange := by
    unfold IntegerType.InRange IntegerType.min IntegerType.max
    rcases type.modulus_cases with bound | bound | bound | bound <;>
      rw [bound] <;> cases type.isSigned <;> simp <;> omega

/-! ## Storing -/

inductive FormatComposedTypeState
  | noInit
  | started
  | ended
  deriving DecidableEq

/-- The buffer holds the first `m_length` bytes. -/
structure BinaryStoreWriter where
  buffer : List UInt8
  capacity : UInt64
  state : FormatComposedTypeState
  composedMemberNum : UInt16
  strTable : Option StringTable

namespace BinaryStoreWriter

/-- A writer on a buffer of that size. -/
def init (capacity : UInt64) (strTable : Option StringTable) :
    BinaryStoreWriter where
  buffer := []
  capacity := capacity
  state := .noInit
  composedMemberNum := 0
  strTable := strTable

def canAppend (writer : BinaryStoreWriter) (length : Nat) : Prop :=
  writer.buffer.length + length ≤ writer.capacity.toNat

instance (writer : BinaryStoreWriter) (length : Nat) :
    Decidable (writer.canAppend length) :=
  inferInstanceAs (Decidable (_ ≤ _))

/-- Append one item, which counts as a member of a composed type. -/
def push (writer : BinaryStoreWriter) (item : List UInt8) :
    BinaryStoreWriter :=
  { writer with
    buffer := writer.buffer ++ item
    composedMemberNum :=
      if writer.state = .started then writer.composedMemberNum + 1
      else writer.composedMemberNum }

/-- Append one item if there is room for it. -/
def pushIfFits (writer : BinaryStoreWriter) (item : List UInt8) :
    BinaryStoreWriter :=
  if writer.canAppend item.length then writer.push item else writer

/-- `append(char)`. -/
def appendChar (writer : BinaryStoreWriter) (character : UInt8) :
    BinaryStoreWriter :=
  writer.pushIfFits [BinaryTypeCode.char.value, character]

/-- `append(StringView, bool)`; the length is stored in one byte. -/
def append (writer : BinaryStoreWriter) (str : List UInt8)
    (storeInTable : Bool) : BinaryStoreWriter :=
  match str with
  | [] => writer
  | [character] => writer.appendChar character
  | _ =>
      match storeInTable, writer.strTable with
      | true, some table =>
          if writer.canAppend (1 + 4) then
            let (index, table) := table.getIndex str
            { writer with strTable := some table }.push
              (BinaryTypeCode.stringRef.value :: bytesOfNat 4 index)
          else writer
      | _, _ =>
          writer.pushIfFits
            (BinaryTypeCode.string.value :: UInt8.ofNat str.length :: str)

/-- `LIGHTSIMPL_BINARY_STORE_WRITER_APPEND_INTEGER_BODY`. -/
def appendInteger (writer : BinaryStoreWriter) (number : Integer) :
    BinaryStoreWriter :=
  writer.pushIfFits
    ((BinaryTypeCode.integer number.type).value :: number.bytes)

end BinaryStoreWriter

/-- The next smaller type of the same signedness. -/
def IntegerType.smaller (type : IntegerType) {size : Nat}
    (above : type.size = size + 1) : IntegerType where
  isSigned := type.isSigned
  size := size
  size_le := by
    have le := type.size_le
    omega

namespace BinaryStoreWriter

/-- `operator<<` of an integer: the one of the next smaller type where the
value fits in it. -/
def insertInteger (writer : BinaryStoreWriter) (number : Integer) :
    BinaryStoreWriter :=
  match above : number.type.size with
  | 0 => writer.appendInteger number
  | _ + 1 =>
      if fits : (number.type.smaller above).InRange number.value then
        writer.insertInteger
          { type := number.type.smaller above, value := number.value
            inRange := fits }
      else writer.appendInteger number
termination_by number.type.size
decreasing_by
  exact Nat.lt_of_lt_of_eq (Nat.lt_succ_self _) above.symm

/-- `operator<<` of a format sink, which never stores in the string table. -/
def insert (writer : BinaryStoreWriter) : Argument → BinaryStoreWriter
  | .bool value =>
      writer.append (literal
        (if value then ['t', 'r', 'u', 'e']
        else ['f', 'a', 'l', 's', 'e'])) false
  | .char value => writer.appendChar value
  | .string value => writer.append value false
  | .integer value => writer.insertInteger value

/-- The header of a composed type: its code and its number of members. -/
def composedHeader (memberNum : UInt16) : List UInt8 :=
  BinaryTypeCode.composedType.value :: bytesOfNat 2 memberNum.toNat

/-- `add_composed_type`: the header is left out again where the value has one
member or none.  Its bytes are not set before that. -/
def addComposedType (writer : BinaryStoreWriter) (value : Argument) :
    BinaryStoreWriter :=
  if writer.state = .started then writer.insert value
  else
    let inserted : BinaryStoreWriter :=
      { writer with
        composedMemberNum := 0
        buffer := writer.buffer ++ composedHeader 0
        state := .started }.insert value
    let members := inserted.buffer.drop (writer.buffer.length + 3)
    { inserted with
      state := .ended
      buffer :=
        if 1 < inserted.composedMemberNum then
          writer.buffer ++ composedHeader inserted.composedMemberNum ++ members
        else if inserted.composedMemberNum = 1 then writer.buffer ++ members
        else inserted.buffer.take (inserted.buffer.length - 3) }

/-- `write`. -/
def write (fmt : List UInt8) :
    List Argument → BinaryStoreWriter → BinaryStoreWriter
  | [], writer => writer
  | value :: args, writer =>
      let i := placeholder fmt
      if i < fmt.length then
        write (fmt.drop (i + 2)) args (writer.addComposedType value)
      else writer

end BinaryStoreWriter

/-! ## Restoring -/

/-- So many bytes of the memory, which ends with the stored arguments. -/
def readBytes (count : Nat) (memory : List UInt8) : Option (List UInt8) :=
  if count ≤ memory.length then some (memory.take count) else none

namespace BinaryRestoreWriter

/-- The text of a string index. -/
def insertStringRef (strTable : Option StringTable) (value : List UInt8)
    (writer : TextWriter) : Option TextWriter :=
  match strTable with
  | some table => do
      let index ← readBytes 4 value
      let index := natOfBytes index
      match table.getStr index with
      | some str => some (writer.append str)
      | none =>
          let number := Integer.ofBytes ⟨false, 2, by decide⟩
            (bytesOfNat 4 index)
          some (((writer.append
            (literal "[[Invalid string index: ".toList)).insertInteger
              number).append (literal "]]".toList))
  | none =>
      some (writer.append (literal
        "[[Use STRING_REF but string table is not set]]".toList))

/-- `write_argument`: the width of the argument, computed in one byte, and the
writer.  There is none where bytes after the stored ones are read. -/
def writeArgument (strTable : Option StringTable) :
    List UInt8 → TextWriter → Option (UInt8 × TextWriter)
  | [], _ => none
  | byte :: value, writer => do
      let width := getTypeWidth byte
      let (width, writer) ←
        match BinaryTypeCode.ofByte byte with
        | some .bool => do
            let flag ← value.head?
            some (width, writer.insert (.bool (flag ≠ 0)))
        | some .char => do
            let character ← value.head?
            some (width, writer.appendChar character)
        | some .string => do
            let length ← value.head?
            let str ← readBytes length.toNat (value.drop 1)
            some (width + length, writer.append str)
        | some (.integer type) => do
            let bytes ← readBytes type.width value
            some (width, writer.insertInteger (.ofBytes type bytes))
        | some .composedType => do
            let memberNum ← readBytes 2 value
            (List.range (natOfBytes memberNum)).foldlM
              (fun (written : UInt8 × TextWriter) _ => do
                let (member, writer) ← writeArgument strTable
                  (value.drop written.1.toNat) written.2
                some (written.1 + member, writer))
              (width, writer)
        | some .stringRef => do
            let writer ← insertStringRef strTable value writer
            some (width, writer)
        | some .invalid | some .max | none => some (width, writer)
      some (width + 1, writer)
termination_by memory => memory.length
decreasing_by
  rw [List.length_drop, List.length_cons]
  omega

/-- `write_binary`. -/
def writeBinary (strTable : Option StringTable) (fmt memory : List UInt8)
    (argsLength : Nat) (writer : TextWriter) : Option TextWriter :=
  if argsLength = 0 then some (writer.append fmt)
  else
    let i := placeholder fmt
    let writer := writer.append (fmt.take i)
    if i < fmt.length then do
      let (width, writer) ← writeArgument strTable memory writer
      writeBinary strTable (fmt.drop (i + 2)) (memory.drop width.toNat)
        (sizeSub argsLength width.toNat) writer
    else some writer
termination_by fmt.length
decreasing_by
  rw [List.length_drop]
  omega

end BinaryRestoreWriter

end Lights
end Spaceless
