import Spaceless.Lights.Format

/-!
# Integers as decimal numbers

`format_integer` writes the digits of an integer backwards from a pointer,
two at a time.  What it writes is the decimal representation, and
`format_need_space` knows its length before.
-/

namespace Spaceless
namespace Lights

/-- The digits of the numbers below hundred. -/
def digists : List UInt8 :=
  literal
    ("0001020304050607080910111213141516171819".toList ++
      "2021222324252627282930313233343536373839".toList ++
      "4041424344454647484950515253545556575859".toList ++
      "6061626364656667686970717273747576777879".toList ++
      "8081828384858687888990919293949596979899".toList)

/-- A pointer into an array or just behind it. -/
@[ext] structure Output where
  memory : List UInt8
  position : Nat
  inside : position ≤ memory.length

namespace Output

/-- `--output; *output = c;` which must not leave the array. -/
def push (output : Output) (character : UInt8) : Option Output :=
  if 0 < output.position then
    some
      { memory := output.memory.set (output.position - 1) character
        position := output.position - 1
        inside := by
          have inside := output.inside
          rw [List.length_set]
          omega }
  else none

/-- Two digits of the table, the second one first. -/
def pushPair (output : Output) (index : Nat) : Option Output := do
  let output ← output.push (← digists[index + 1]?)
  output.push (← digists[index]?)

/-- The loop of `format_integer`. -/
def pushDigits (absolute : Nat) (output : Output) : Option Output :=
  if 100 ≤ absolute then do
    let output ← output.pushPair (absolute % 100 * 2)
    pushDigits (absolute / 100) output
  else if absolute < 10 then
    output.push (charByte '0' + UInt8.ofNat absolute)
  else output.pushPair (absolute * 2)

/-- `format_integer`. -/
def pushInteger (number : Integer) (output : Output) : Option Output := do
  let absolute := number.type.absolute number.value
  let output ←
    if absolute = 0 then output.push (charByte '0')
    else pushDigits absolute output
  if number.value < 0 then output.push (charByte '-') else some output

/-- The view of a pointer, which ends at the null character. -/
def view (output : Output) : List UInt8 :=
  (output.memory.drop output.position).takeWhile (· ≠ 0)

end Output

/-- The decimal representation of a number. -/
def decimal (value : Int) : List UInt8 :=
  let digits := literal (Nat.toDigits 10 value.natAbs)
  if value < 0 then charByte '-' :: digits else digits

/-! ## The digits -/

/-- The two digits of each number below the bound, one after another. -/
def digitPairs : Nat → List UInt8
  | 0 => []
  | bound + 1 => digitPairs bound ++ [digit (bound / 10), digit (bound % 10)]

theorem length_digitPairs (bound : Nat) :
    (digitPairs bound).length = bound * 2 := by
  induction bound with
  | zero => rfl
  | succ bound inductionHypothesis =>
      rw [digitPairs, List.length_append, inductionHypothesis, Nat.succ_mul]
      rfl

theorem getElem?_digitPairs {number bound : Nat} (below : number < bound) :
    (digitPairs bound)[number * 2]? = some (digit (number / 10)) ∧
      (digitPairs bound)[number * 2 + 1]? =
        some (digit (number % 10)) := by
  induction bound with
  | zero => exact absurd below (Nat.not_lt_zero number)
  | succ bound inductionHypothesis =>
      have length := length_digitPairs bound
      rw [digitPairs]
      rcases Nat.lt_succ_iff_lt_or_eq.mp below with before | rfl
      · rw [List.getElem?_append_left (by omega),
          List.getElem?_append_left (by omega)]
        exact inductionHypothesis before
      · rw [List.getElem?_append_right (Nat.le_of_eq length),
          List.getElem?_append_right (by omega), length, Nat.sub_self,
          Nat.add_sub_cancel_left]
        exact ⟨rfl, rfl⟩

/-- The table holds the two digits of each number. -/
theorem digists_eq : digists = digitPairs 100 := by
  decide +kernel

theorem charByte_digitChar :
    ∀ number < 10, charByte (Nat.digitChar number) = digit number := by
  decide

/-- One digit. -/
theorem literal_toDigits_of_lt {number : Nat} (single : number < 10) :
    literal (Nat.toDigits 10 number) = [digit number] := by
  rw [Nat.toDigits_of_lt_base single]
  exact congrArg (fun byte => [byte]) (charByte_digitChar number single)

/-- The last digit comes behind the others. -/
theorem literal_toDigits_of_le {number : Nat} (more : 10 ≤ number) :
    literal (Nat.toDigits 10 number) =
      literal (Nat.toDigits 10 (number / 10)) ++ [digit (number % 10)] := by
  have last := charByte_digitChar (number % 10)
    (Nat.mod_lt number (by decide))
  rw [Nat.toDigits_of_base_le (by decide) more, literal, List.map_append,
    List.map_singleton, last]
  rfl

/-- The loop with the table forms the decimal digits. -/
theorem formatDigits_eq (absolute : Nat) (output : List UInt8) :
    formatDigits absolute output =
      literal (Nat.toDigits 10 absolute) ++ output := by
  fun_induction formatDigits absolute output with
  | case1 absolute output large inductionHypothesis =>
      have tens : absolute / 10 / 10 = absolute / 100 := by
        omega
      have digits : absolute / 10 % 10 = absolute % 100 / 10 := by
        omega
      rw [inductionHypothesis,
        @literal_toDigits_of_le absolute (by omega),
        @literal_toDigits_of_le (absolute / 10) (by omega), tens,
        digits, List.append_assoc, List.append_assoc]
      rfl
  | case2 absolute output small single =>
      rw [literal_toDigits_of_lt single]
      rfl
  | case3 absolute output small double =>
      rw [literal_toDigits_of_le (by omega),
        literal_toDigits_of_lt (by omega)]
      rfl

/-- The text of an integer is its decimal representation. -/
theorem formatInteger_eq (number : Integer) :
    formatInteger number = decimal number.value := by
  have digits : (if number.value.natAbs = 0 then [charByte '0']
      else formatDigits number.value.natAbs []) =
        literal (Nat.toDigits 10 number.value.natAbs) := by
    split
    case isTrue zero =>
      rw [zero]
      rfl
    case isFalse => rw [formatDigits_eq, List.append_nil]
  unfold formatInteger decimal
  rw [number.absolute_eq]
  dsimp only
  rw [digits]

/-! ## The digits in memory -/

namespace Output

/-- The pointer between two parts of an array. -/
def between (before after : List UInt8) : Output where
  memory := before ++ after
  position := before.length
  inside := by
    rw [List.length_append]
    exact Nat.le_add_right _ _

@[simp] theorem memory_between (before after : List UInt8) :
    (between before after).memory = before ++ after := rfl

@[simp] theorem position_between (before after : List UInt8) :
    (between before after).position = before.length := rfl

theorem eq_between (output : Output) :
    output = between (output.memory.take output.position)
      (output.memory.drop output.position) := by
  ext1
  · exact (List.take_append_drop _ _).symm
  · rw [position_between, List.length_take, Nat.min_eq_left output.inside]

/-- One character takes the place before the pointer. -/
theorem push_between (before : List UInt8) (old character : UInt8)
    (after : List UInt8) :
    (between (before ++ [old]) after).push character =
      some (between before (character :: after)) := by
  have position : (between (before ++ [old]) after).position - 1 =
      before.length := by
    simp
  unfold push
  rw [if_pos (by simp)]
  apply congrArg some
  ext1
  · dsimp only
    rw [position, memory_between, List.append_assoc,
      List.set_append_right _ _ (Nat.le_refl _), Nat.sub_self]
    rfl
  · exact position

/-- The two digits of a number below hundred. -/
theorem pushPair_between {number : Nat} (below : number < 100)
    (before : List UInt8) (first second : UInt8) (after : List UInt8) :
    (between (before ++ [first, second]) after).pushPair (number * 2) =
      some (between before
        (digit (number / 10) :: digit (number % 10) :: after)) := by
  obtain ⟨tens, ones⟩ := getElem?_digitPairs below
  have room : before ++ [first, second] = before ++ [first] ++ [second] := by
    rw [List.append_assoc]
    rfl
  unfold pushPair
  rw [digists_eq, tens, ones, room]
  change ((between (before ++ [first] ++ [second]) after).push
    (digit (number % 10))).bind (fun output =>
      output.push (digit (number / 10))) = _
  rw [push_between, Option.bind_some, push_between]

/-- A room of one more place has a last place. -/
theorem exists_concat {room : List UInt8} {length : Nat}
    (size : room.length = length + 1) :
    ∃ front last, room = front ++ [last] ∧ front.length = length := by
  rcases List.eq_nil_or_concat room with rfl | ⟨front, last, rfl⟩
  · cases size
  · rw [List.concat_eq_append, List.length_append] at size
    exact ⟨front, last, List.concat_eq_append, Nat.succ.inj size⟩

/-- A room of two more places. -/
theorem exists_concat_pair {room : List UInt8} {length : Nat}
    (size : room.length = length + 2) :
    ∃ front first second, room = front ++ [first, second] ∧
      front.length = length := by
  obtain ⟨most, second, rfl, mostSize⟩ := exists_concat size
  obtain ⟨front, first, rfl, frontSize⟩ := exists_concat mostSize
  refine ⟨front, first, second, ?_, frontSize⟩
  rw [List.append_assoc]
  rfl

/-- The loop fills a room of as many places as it counts. -/
theorem pushDigits_between (before : List UInt8) {absolute : Nat}
    {room after : List UInt8}
    (size : room.length = countDigits absolute 0) :
    pushDigits absolute (between (before ++ room) after) =
      some (between before (formatDigits absolute after)) := by
  fun_induction formatDigits absolute after generalizing room with
  | case1 absolute after large inductionHypothesis =>
      rw [countDigits, if_pos large, countDigits_eq] at size
      obtain ⟨front, first, second, rfl, rest⟩ := exists_concat_pair size
      have ones : absolute % 100 % 10 = absolute % 10 := by
        omega
      rw [pushDigits, if_pos large, ← List.append_assoc,
        pushPair_between (Nat.mod_lt _ (by decide)), ones]
      exact inductionHypothesis rest
  | case2 absolute after small single =>
      rw [countDigits, if_neg small, if_pos single] at size
      obtain ⟨front, last, rfl, rest⟩ := exists_concat size
      rw [List.length_eq_zero_iff.mp rest, pushDigits, if_neg small,
        if_pos single]
      exact push_between before last _ after
  | case3 absolute after small double =>
      rw [countDigits, if_neg small, if_neg double] at size
      obtain ⟨front, first, second, rfl, rest⟩ := exists_concat_pair size
      rw [List.length_eq_zero_iff.mp rest, pushDigits, if_neg small,
        if_neg double]
      exact pushPair_between (Nat.lt_of_not_le small) before first second
        after

/-- The text of an integer fills the room that it needs. -/
theorem pushInteger_between (number : Integer) (before : List UInt8)
    {room : List UInt8} (size : room.length = formatNeedSpace number)
    (after : List UInt8) :
    pushInteger number (between (before ++ room) after) =
      some (between before (decimal number.value ++ after)) := by
  unfold formatNeedSpace at size
  unfold pushInteger decimal
  rw [number.absolute_eq] at *
  dsimp only at size ⊢
  by_cases negative : number.value < 0
  · simp only [if_pos negative] at size ⊢
    have nonzero : number.value.natAbs ≠ 0 := by
      omega
    rw [if_neg nonzero, countDigits_eq] at size
    obtain ⟨sign, rest, rfl⟩ := List.exists_cons_of_length_eq_add_one size
    have digits := @pushDigits_between (before ++ [sign]) _ rest after
      (Nat.succ.inj size)
    rw [List.append_assoc, List.singleton_append] at digits
    rw [if_neg nonzero, digits, Option.bind_eq_bind, Option.bind_some,
      push_between, formatDigits_eq]
    rfl
  · simp only [if_neg negative] at size ⊢
    by_cases zero : number.value.natAbs = 0
    · rw [if_pos zero] at size ⊢
      obtain ⟨front, last, rfl, rest⟩ := exists_concat size
      rw [List.length_eq_zero_iff.mp rest, zero, List.nil_append,
        push_between]
      rfl
    · rw [if_neg zero] at size
      rw [if_neg zero, pushDigits_between before size, formatDigits_eq]
      rfl

/-- The text of an integer ends just before the pointer. -/
theorem pushInteger_eq (number : Integer) (output : Output)
    (enough : formatNeedSpace number ≤ output.position) :
    pushInteger number output =
      some (between
        (output.memory.take (output.position - formatNeedSpace number))
        (decimal number.value ++ output.memory.drop output.position)) := by
  have inside := output.inside
  have split : output.memory.take output.position =
      output.memory.take (output.position - formatNeedSpace number) ++
        (output.memory.drop
          (output.position - formatNeedSpace number)).take
            (formatNeedSpace number) := by
    rw [← List.take_add, Nat.sub_add_cancel enough]
  conv_lhs => rw [output.eq_between, split]
  apply pushInteger_between
  rw [List.length_take, List.length_drop]
  omega

end Output

/-- The text of an integer has the length that was told before. -/
theorem length_decimal (number : Integer) :
    (decimal number.value).length = formatNeedSpace number := by
  rw [← formatInteger_eq, length_formatInteger]

/-- The largest numbers have twenty digits, or nineteen and a sign. -/
theorem formatNeedSpace_le (number : Integer) :
    formatNeedSpace number ≤ 20 := by
  rw [← length_decimal]
  obtain ⟨type, value, least, greatest⟩ := number
  unfold IntegerType.min at least
  unfold IntegerType.max at greatest
  have most : type.modulus ≤ 18446744073709551616 := by
    rcases type.modulus_cases with bound | bound | bound | bound <;> omega
  unfold decimal
  dsimp only
  split
  case isTrue negative =>
    have digits : (Nat.toDigits 10 value.natAbs).length ≤ 19 := by
      apply (Nat.length_toDigits_le_iff (by decide) (by decide)).mpr
      split at least <;> omega
    rw [List.length_cons, literal, List.length_map]
    exact Nat.succ_le_succ digits
  case isFalse nonnegative =>
    rw [literal, List.length_map]
    apply (Nat.length_toDigits_le_iff (by decide) (by decide)).mpr
    split at greatest <;> omega

/-- No digit or sign is the null character. -/
theorem ne_zero_of_mem_decimal {value : Int} {byte : UInt8}
    (present : byte ∈ decimal value) : byte ≠ 0 := by
  have digits : ∀ byte ∈ literal (Nat.toDigits 10 value.natAbs),
      byte ≠ 0 := by
    intro byte found
    obtain ⟨character, member, rfl⟩ := List.mem_map.mp found
    have range := Char.isDigit_iff_toNat.mp
      (Nat.isDigit_of_mem_toDigits (by decide) (by decide) member)
    have least : 48 ≤ character.toNat := range.1
    have greatest : character.toNat ≤ 57 := range.2
    intro null
    have number := congrArg UInt8.toNat null
    rw [charByte, UInt8.toNat_ofNat', UInt8.toNat_zero] at number
    omega
  unfold decimal at present
  dsimp only at present
  split at present
  case isTrue =>
    rcases List.mem_cons.mp present with rfl | found
    · decide
    · exact digits byte found
  case isFalse => exact digits byte present

/-! ## The formater -/

/-- The buffer of a formater ends in a null character. -/
def EndsNull (buffer : List UInt8) : Prop :=
  buffer.length = 21 ∧ buffer[20]? = some 0

instance (buffer : List UInt8) : Decidable (EndsNull buffer) :=
  inferInstanceAs (Decidable (_ ∧ _))

/-- `IntegerFormater`: what the other characters are does not matter. -/
structure IntegerFormater where
  buffer : List UInt8
  endsNull : EndsNull buffer

/-- `format`: the pointer is set to the null character first. -/
def IntegerFormater.format (formater : IntegerFormater) (number : Integer) :
    Option (IntegerFormater × List UInt8) := do
  let output ← Output.pushInteger number
    ⟨formater.buffer, 20, by rw [formater.endsNull.1]; decide⟩
  if endsNull : EndsNull output.memory then
    some (⟨output.memory, endsNull⟩, output.view)
  else none

/-- The formater returns the decimal representation and can be used
again. -/
theorem IntegerFormater.format_eq (formater : IntegerFormater)
    (number : Integer) :
    ∃ formater', formater.format number =
      some (formater', decimal number.value) := by
  obtain ⟨buffer, size, last⟩ := formater
  have need := formatNeedSpace_le number
  have length := length_decimal number
  have null : buffer.drop 20 = [0] := by
    obtain ⟨inside, value⟩ := List.getElem?_eq_some_iff.mp last
    rw [List.drop_eq_getElem_cons inside, value,
      List.drop_of_length_le (Nat.le_of_eq size)]
  have front : (buffer.take (20 - formatNeedSpace number)).length +
      (decimal number.value).length = 20 := by
    rw [List.length_take]
    omega
  have endsNull : EndsNull (Output.between
      (buffer.take (20 - formatNeedSpace number))
      (decimal number.value ++ [0])).memory := by
    rw [Output.memory_between, ← List.append_assoc]
    constructor
    · rw [List.length_append, List.length_append, front]
      rfl
    · rw [List.getElem?_append_right
        (by rw [List.length_append]; exact Nat.le_of_eq front),
        List.length_append, front]
      rfl
  have view : (Output.between (buffer.take (20 - formatNeedSpace number))
      (decimal number.value ++ [0])).view = decimal number.value := by
    rw [Output.view, Output.memory_between, Output.position_between,
      List.drop_left, List.takeWhile_append_of_pos]
    · exact List.append_nil _
    · intro byte present
      exact decide_eq_true (ne_zero_of_mem_decimal present)
  unfold format
  rw [Output.pushInteger_eq number _ need, Option.bind_eq_bind,
    Option.bind_some]
  dsimp only
  rw [null, dif_pos endsNull, view]
  exact ⟨_, rfl⟩

/-! ## The text writer in memory -/

/-- A `TextWriter` with its buffer: what is behind the text is left over. -/
structure WriterMemory where
  buffer : List UInt8
  length : Nat
  occupied : length < buffer.length

namespace WriterMemory

/-- The text of the writer. -/
def toTextWriter (writer : WriterMemory) : TextWriter where
  capacity := writer.buffer.length
  text := writer.buffer.take writer.length
  occupied := by
    rw [List.length_take]
    exact Nat.lt_of_le_of_lt (Nat.min_le_left _ _) writer.occupied

/-- `can_append`: the null character keeps its place. -/
def CanAppend (writer : WriterMemory) (length : Nat) : Prop :=
  writer.length + length ≤ writer.buffer.length - 1

instance (writer : WriterMemory) (length : Nat) :
    Decidable (writer.CanAppend length) :=
  inferInstanceAs (Decidable (_ ≤ _))

/-- `operator<<` of an integer.  Nothing may be written outside the
buffer. -/
def insertInteger (writer : WriterMemory) (number : Integer) :
    Option WriterMemory :=
  let len := formatNeedSpace number
  if fits : writer.CanAppend len then do
    let output ← Output.pushInteger number
      ⟨writer.buffer, writer.length + len,
        Nat.le_trans fits (Nat.sub_le _ 1)⟩
    if occupied : writer.length + len < output.memory.length then
      some ⟨output.memory, writer.length + len, occupied⟩
    else none
  else some writer

variable {writer : WriterMemory} {number : Integer}

/-- The text of the number is placed behind the text of the writer. -/
theorem insertInteger_of_canAppend
    (fits : writer.CanAppend (formatNeedSpace number)) :
    ∃ writer', writer.insertInteger number = some writer' ∧
      writer'.length = writer.length + formatNeedSpace number ∧
      writer'.buffer = writer.buffer.take writer.length ++
        (decimal number.value ++
          writer.buffer.drop (writer.length + formatNeedSpace number)) := by
  have occupied := writer.occupied
  have length := length_decimal number
  have start : writer.length + formatNeedSpace number -
      formatNeedSpace number = writer.length := Nat.add_sub_cancel _ _
  have size : (writer.buffer.take writer.length ++ (decimal number.value ++
      writer.buffer.drop (writer.length + formatNeedSpace number))).length =
        writer.buffer.length := by
    simp only [List.length_append, List.length_take, List.length_drop]
    unfold CanAppend at fits
    omega
  unfold insertInteger
  dsimp only
  rw [dif_pos fits, Output.pushInteger_eq number _ (Nat.le_add_left _ _),
    Option.bind_eq_bind, Option.bind_some]
  dsimp only
  simp only [start]
  rw [dif_pos (by
    rw [Output.memory_between, size]
    unfold CanAppend at fits
    omega)]
  exact ⟨_, rfl, rfl, rfl⟩

/-- The writer in memory does what the writer of texts does. -/
theorem insertInteger_toTextWriter :
    ∃ writer', writer.insertInteger number = some writer' ∧
      writer'.toTextWriter = writer.toTextWriter.insertInteger number := by
  have occupied := writer.occupied
  have text : (writer.buffer.take writer.length).length =
      writer.length := by
    rw [List.length_take]
    omega
  by_cases fits : writer.CanAppend (formatNeedSpace number)
  · obtain ⟨writer', inserted, length, buffer⟩ :=
      insertInteger_of_canAppend fits
    have room : writer.toTextWriter.canAppend (formatNeedSpace number) := by
      unfold TextWriter.canAppend TextWriter.maxSize toTextWriter
      rw [text]
      exact fits
    refine ⟨writer', inserted, ?_⟩
    rw [TextWriter.insertInteger, dif_pos room]
    unfold TextWriter.push toTextWriter
    congr 1
    · rw [buffer]
      simp only [List.length_append, List.length_take, List.length_drop,
        length_decimal]
      unfold CanAppend at fits
      omega
    · rw [buffer, length, formatInteger_eq, ← List.append_assoc]
      apply List.take_left'
      rw [List.length_append, text, length_decimal]
  · have full : ¬ writer.toTextWriter.canAppend (formatNeedSpace number) := by
      unfold TextWriter.canAppend TextWriter.maxSize toTextWriter
      rw [text]
      exact fits
    refine ⟨writer, dif_neg fits, ?_⟩
    rw [TextWriter.insertInteger, dif_neg full]

end WriterMemory

/-- The text of every integer: what `format_integer` writes before the
pointer, what `format_need_space` counts, and what becomes of it in a formater
and in a writer. -/
theorem format_integer_eq_decimal (number : Integer) :
    formatNeedSpace number = (decimal number.value).length ∧
    (∀ output : Output, formatNeedSpace number ≤ output.position →
      ∃ output', Output.pushInteger number output = some output' ∧
        output'.position + formatNeedSpace number = output.position ∧
        output'.memory = output.memory.take output'.position ++
          (decimal number.value ++ output.memory.drop output.position)) ∧
    (∀ formater : IntegerFormater, ∃ formater',
      formater.format number = some (formater', decimal number.value)) ∧
    ∀ writer : WriterMemory, writer.CanAppend (formatNeedSpace number) →
      ∃ writer', writer.insertInteger number = some writer' ∧
        writer'.length = writer.length + formatNeedSpace number ∧
        writer'.buffer = writer.buffer.take writer.length ++
          (decimal number.value ++
            writer.buffer.drop
              (writer.length + formatNeedSpace number)) := by
  refine ⟨(length_decimal number).symm, ?_, ?_, ?_⟩
  · intro output enough
    have inside := output.inside
    have position : (output.memory.take
        (output.position - formatNeedSpace number)).length =
          output.position - formatNeedSpace number := by
      rw [List.length_take]
      omega
    refine ⟨_, Output.pushInteger_eq number output enough, ?_, ?_⟩
    · rw [Output.position_between, position, Nat.sub_add_cancel enough]
    · rw [Output.memory_between, Output.position_between, position]
  · intro formater
    exact formater.format_eq number
  · intro writer fits
    exact WriterMemory.insertInteger_of_canAppend fits

theorem size_int64 : 3 ≤ 3 := Nat.le_refl 3

/-- `std::int64_t` -/
def int64 : IntegerType := ⟨true, 3, size_int64⟩

theorem inRange_int64 : int64.InRange (-9223372036854775808) := by
  decide

/-- The least `std::int64_t`, of which the text is longest. -/
def leastInteger : Integer :=
  ⟨int64, -9223372036854775808, inRange_int64⟩

example : decimal leastInteger.value =
    literal "-9223372036854775808".toList := by decide +kernel

theorem format_leastInteger :
    (∃ output', Output.pushInteger leastInteger
        ⟨List.replicate 24 7, 22, by decide⟩ = some output' ∧
      output'.position + formatNeedSpace leastInteger = 22 ∧
      output'.memory = (List.replicate 24 7).take output'.position ++
        (decimal leastInteger.value ++ (List.replicate 24 7).drop 22)) ∧
    ∃ writer', WriterMemory.insertInteger
        ⟨List.replicate 24 7, 3, by decide⟩ leastInteger = some writer' ∧
      writer'.length = 3 + formatNeedSpace leastInteger ∧
      writer'.buffer = (List.replicate 24 7).take 3 ++
        (decimal leastInteger.value ++ (List.replicate 24 7).drop
          (3 + formatNeedSpace leastInteger)) := by
  have need : formatNeedSpace leastInteger = 20 := by
    decide +kernel
  constructor
  · exact (format_integer_eq_decimal leastInteger).2.1
      ⟨List.replicate 24 7, 22, by decide⟩
      (Nat.le_trans (Nat.le_of_eq need) (by decide))
  · exact (format_integer_eq_decimal leastInteger).2.2.2
      ⟨List.replicate 24 7, 3, by decide⟩
      (Nat.le_trans (Nat.add_le_add_left (Nat.le_of_eq need) 3) (by decide))

end Lights
end Spaceless
