import Spaceless.Foundation.Integer

/-!
# Formatting of text

The format functions of `lights` write the arguments of a format string at
its placeholders.  Text is a list of bytes, as `char` is; a `TextWriter` has
no full handler here and drops what does not fit.
-/

namespace Spaceless
namespace Lights

/-- A character of the source, which is ASCII. -/
def charByte (character : Char) : UInt8 := UInt8.ofNat character.toNat

/-- The bytes of a string literal. -/
def literal (characters : List Char) : List UInt8 :=
  characters.map charByte

/-! ## Integers -/

/-- One of the eight integer types.  The sizes are numbered as in
`get_type_code`: 0, 1, 2, 3 for 8, 16, 32, 64 bits. -/
structure IntegerType where
  isSigned : Bool
  size : Nat
  size_le : size ≤ 3
  deriving DecidableEq

/-- The width in bytes of a size. -/
def widthOf : Nat → Nat
  | 0 => 1
  | size + 1 => 2 * widthOf size

/-- How many values so many bytes have. -/
def byteBound : Nat → Nat
  | 0 => 1
  | width + 1 => 256 * byteBound width

namespace IntegerType

def width (type : IntegerType) : Nat := widthOf type.size

/-- How many values the type has. -/
def modulus (type : IntegerType) : Nat := byteBound type.width

/-- `std::numeric_limits<T>::min()`. -/
def min (type : IntegerType) : Int :=
  if type.isSigned then -(type.modulus / 2 : Nat) else 0

/-- `std::numeric_limits<T>::max()`. -/
def max (type : IntegerType) : Int :=
  if type.isSigned then (type.modulus / 2 : Nat) - 1 else type.modulus - 1

/-- The value is one of the type. -/
def InRange (type : IntegerType) (value : Int) : Prop :=
  type.min ≤ value ∧ value ≤ type.max

instance (type : IntegerType) (value : Int) :
    Decidable (type.InRange value) :=
  inferInstanceAs (Decidable (_ ∧ _))

/-- The conversion to the unsigned type, and of its negation to it. -/
def absolute (type : IntegerType) (value : Int) : Nat :=
  let absolute := (value % type.modulus).toNat
  if value < 0 then (type.modulus - absolute) % type.modulus else absolute

end IntegerType

/-- A value of an integer type. -/
structure Integer where
  type : IntegerType
  value : Int
  inRange : type.InRange value

/-- A decimal digit. -/
def digit (number : Nat) : UInt8 := charByte '0' + UInt8.ofNat number

/-- The loop of `format_integer` with the table of two digits. -/
def formatDigits (absolute : Nat) (output : List UInt8) : List UInt8 :=
  if 100 ≤ absolute then
    formatDigits (absolute / 100)
      (digit (absolute % 100 / 10) :: digit (absolute % 10) :: output)
  else if absolute < 10 then digit absolute :: output
  else digit (absolute / 10) :: digit (absolute % 10) :: output

/-- `format_integer`: the text that ends at the output. -/
def formatInteger (number : Integer) : List UInt8 :=
  let absolute := number.type.absolute number.value
  let digits :=
    if absolute = 0 then [charByte '0'] else formatDigits absolute []
  if number.value < 0 then charByte '-' :: digits else digits

/-- The loop of `format_need_space`. -/
def countDigits (absolute count : Nat) : Nat :=
  if 100 ≤ absolute then countDigits (absolute / 100) (count + 2)
  else if absolute < 10 then count + 1
  else count + 2

def formatNeedSpace (number : Integer) : Nat :=
  let absolute := number.type.absolute number.value
  let count := if number.value < 0 then 1 else 0
  if absolute = 0 then 1 else countDigits absolute count

theorem IntegerType.modulus_cases (type : IntegerType) :
    type.modulus = 256 ∨ type.modulus = 65536 ∨
      type.modulus = 4294967296 ∨ type.modulus = 18446744073709551616 := by
  obtain ⟨isSigned, size, size_le⟩ := type
  match size, size_le with
  | 0, _ => exact .inl rfl
  | 1, _ => exact .inr (.inl rfl)
  | 2, _ => exact .inr (.inr (.inl rfl))
  | 3, _ => exact .inr (.inr (.inr rfl))

/-- The negation of the least value does not overflow when unsigned. -/
theorem Integer.absolute_eq (number : Integer) :
    number.type.absolute number.value = number.value.natAbs := by
  obtain ⟨type, value, least, greatest⟩ := number
  unfold IntegerType.min at least
  unfold IntegerType.max at greatest
  unfold IntegerType.absolute
  dsimp only
  rcases type.modulus_cases with bound | bound | bound | bound <;>
    rw [bound] at least greatest ⊢ <;> split at least <;>
      split at greatest <;> split <;> omega

theorem countDigits_eq (absolute count : Nat) :
    countDigits absolute count = countDigits absolute 0 + count := by
  induction absolute using Nat.strongRecOn generalizing count with
  | ind absolute ih =>
      rw [countDigits.eq_def absolute count, countDigits.eq_def absolute 0]
      split
      · have smaller : absolute / 100 < absolute := by omega
        rw [ih _ smaller (count + 2), ih _ smaller (0 + 2)]
        omega
      · split <;> omega

theorem length_formatDigits (absolute : Nat) (output : List UInt8) :
    (formatDigits absolute output).length =
      countDigits absolute 0 + output.length := by
  fun_induction formatDigits absolute output with
  | case1 absolute output large ih =>
      rw [ih, countDigits.eq_def absolute 0, if_pos large, countDigits_eq _ 2]
      simp only [List.length_cons]
      omega
  | case2 absolute output small single =>
      rw [countDigits, if_neg small, if_pos single, List.length_cons]
      omega
  | case3 absolute output small double =>
      rw [countDigits, if_neg small, if_neg double]
      simp only [List.length_cons]
      omega

/-- The needed space is the space taken. -/
theorem length_formatInteger (number : Integer) :
    (formatInteger number).length = formatNeedSpace number := by
  unfold formatInteger formatNeedSpace
  rw [number.absolute_eq]
  dsimp only
  by_cases negative : number.value < 0
  · have nonzero : number.value.natAbs ≠ 0 := by omega
    rw [if_pos negative, if_neg nonzero, if_pos negative, if_neg nonzero,
      List.length_cons, length_formatDigits, countDigits_eq _ 1,
      List.length_nil]
  · rw [if_neg negative, if_neg negative]
    split
    · rfl
    · rw [length_formatDigits, List.length_nil, Nat.add_zero]

/-! ## Arguments and placeholders -/

/-- An argument of a format function. -/
inductive Argument
  | bool (value : Bool)
  | char (value : UInt8)
  | string (value : List UInt8)
  | integer (value : Integer)

/-- The text `{}`. -/
def braces : List UInt8 := literal ['{', '}']

/-- The index of the first placeholder of a format string, or its length. -/
def placeholder : List UInt8 → Nat
  | [] => 0
  | character :: fmt =>
      if character = charByte '{' ∧ fmt.head? = some (charByte '}') then 0
      else placeholder fmt + 1

/-! ## The text writer -/

/-- The text written so far is followed by a null character, so the buffer is
never full. -/
structure TextWriter where
  capacity : Nat
  text : List UInt8
  occupied : text.length < capacity

namespace TextWriter

/-- A writer with a buffer for that many characters and the null character. -/
def init (maxSize : Nat) : TextWriter where
  capacity := maxSize + 1
  text := []
  occupied := Nat.succ_pos maxSize

def maxSize (writer : TextWriter) : Nat := writer.capacity - 1

def canAppend (writer : TextWriter) (length : Nat) : Prop :=
  writer.text.length + length ≤ writer.maxSize

instance (writer : TextWriter) (length : Nat) :
    Decidable (writer.canAppend length) :=
  inferInstanceAs (Decidable (_ ≤ _))

/-- Append what can be appended. -/
def push (writer : TextWriter) (str : List UInt8)
    (fits : writer.canAppend str.length) : TextWriter where
  capacity := writer.capacity
  text := writer.text ++ str
  occupied := by
    have room := writer.occupied
    unfold canAppend maxSize at fits
    rw [List.length_append]
    omega

/-- `append(char)`. -/
def appendChar (writer : TextWriter) (character : UInt8) : TextWriter :=
  if fits : writer.canAppend 1 then writer.push [character] fits else writer

theorem canAppend_take (writer : TextWriter) (str : List UInt8) :
    writer.canAppend
      (str.take (writer.maxSize - writer.text.length)).length := by
  have room := writer.occupied
  unfold canAppend maxSize
  rw [List.length_take]
  omega

/-- `append(StringView)`: of a string that does not fit, the part that
does. -/
def append (writer : TextWriter) (str : List UInt8) : TextWriter :=
  if fits : writer.canAppend str.length then writer.push str fits
  else
    writer.push (str.take (writer.maxSize - writer.text.length))
      (writer.canAppend_take str)

/-- `operator<<` of an integer: all of its digits, or nothing. -/
def insertInteger (writer : TextWriter) (number : Integer) : TextWriter :=
  if fits : writer.canAppend (formatNeedSpace number) then
    writer.push (formatInteger number) (by rwa [length_formatInteger])
  else writer

/-- `operator<<` of a format sink. -/
def insert (writer : TextWriter) : Argument → TextWriter
  | .bool value =>
      writer.append (literal
        (if value then ['t', 'r', 'u', 'e']
        else ['f', 'a', 'l', 's', 'e']))
  | .char value => writer.appendChar value
  | .string value => writer.append value
  | .integer value => writer.insertInteger value

/-- `write`. -/
def write (fmt : List UInt8) : List Argument → TextWriter → TextWriter
  | [], writer => writer.append fmt
  | value :: args, writer =>
      let i := placeholder fmt
      let writer := writer.append (fmt.take i)
      if i < fmt.length then
        write (fmt.drop (i + 2)) args (writer.insert value)
      else writer

end TextWriter

end Lights
end Spaceless
