import Mathlib.Data.List.Induction
import Spaceless.Lights.Restoring

/-!
# Where the text and the binary format agree

An empty string has no item, and the length of an item is computed in one byte.
A binary writer leaves out an argument behind which less than the header of a
composed type would be free, and its placeholder stays in the text.  Where
none of this happens to the arguments that a format string takes, both writers
agree on it; where both agree on every format string, none of this happens.
-/

namespace Spaceless
namespace Lights

/-! ## Texts of arguments -/

theorem digit_ne_brace (number : Nat) (below : number < 10) :
    digit number ≠ charByte '{' := by
  have all : ∀ number < 10, digit number ≠ charByte '{' := by decide
  exact all number below

theorem brace_not_mem_formatDigits {absolute : Nat} {output : List UInt8}
    (absent : charByte '{' ∉ output) :
    charByte '{' ∉ formatDigits absolute output := by
  fun_induction formatDigits absolute output with
  | case1 absolute output large ih =>
      apply ih
      rw [List.mem_cons, List.mem_cons]
      rintro (first | second | mem)
      · exact digit_ne_brace _ (by omega) first.symm
      · exact digit_ne_brace _ (by omega) second.symm
      · exact absent mem
  | case2 absolute output small single =>
      rw [List.mem_cons]
      rintro (first | mem)
      · exact digit_ne_brace _ single first.symm
      · exact absent mem
  | case3 absolute output small double =>
      rw [List.mem_cons, List.mem_cons]
      rintro (first | second | mem)
      · exact digit_ne_brace _ (by omega) first.symm
      · exact digit_ne_brace _ (by omega) second.symm
      · exact absent mem

theorem formatDigits_ne_nil (absolute : Nat) (output : List UInt8) :
    formatDigits absolute output ≠ [] := by
  fun_induction formatDigits absolute output with
  | case1 absolute output large ih => exact ih
  | case2 absolute output small single => exact List.cons_ne_nil _ _
  | case3 absolute output small double => exact List.cons_ne_nil _ _

/-- The digits of an integer begin with no brace. -/
theorem formatInteger_eq_cons (number : Integer) :
    ∃ first others, formatInteger number = first :: others ∧
      first ≠ charByte '{' := by
  unfold formatInteger
  dsimp only
  split
  · exact ⟨_, _, rfl, by decide⟩
  · split
    · exact ⟨_, _, rfl, by decide⟩
    · cases digits : formatDigits (number.type.absolute number.value) [] with
      | nil => exact absurd digits (formatDigits_ne_nil _ _)
      | cons first others =>
          refine ⟨first, others, rfl, ?_⟩
          rintro rfl
          apply brace_not_mem_formatDigits List.not_mem_nil
          rw [digits]
          exact List.mem_cons_self

namespace Argument

theorem eq_of_text_eq_braces {argument : Argument}
    (same : argument.text = braces) : argument = .string braces := by
  cases argument with
  | bool value => cases value <;> exact absurd same (by decide)
  | char value => cases same
  | string value => rw [← same]; rfl
  | integer value =>
      obtain ⟨first, others, text, other⟩ := formatInteger_eq_cons value
      rw [Argument.text, text] at same
      exact absurd (List.head_eq_of_cons_eq same) other

theorem storable_of_short {argument : Argument}
    (short : argument.stored.length = 2) : argument.Storable := by
  rintro str rfl
  match str with
  | [] => cases short
  | [character] => exact ⟨List.cons_ne_nil _ _, Nat.le_of_ble_eq_true rfl⟩
  | first :: second :: str => cases short

/-- An item of two bytes is no text between braces. -/
theorem text_ne_of_short {argument : Argument}
    (short : argument.stored.length = 2) :
    argument.text ++ braces ≠ braces ++ argument.text := by
  cases argument with
  | bool value => cases value <;> exact absurd short (by decide)
  | char value =>
      intro same
      have first := List.head_eq_of_cons_eq same
      rw [first] at same
      exact absurd same (by decide)
  | string value =>
      match value with
      | [] => cases short
      | [character] =>
          intro same
          have first := List.head_eq_of_cons_eq same
          rw [first] at same
          exact absurd same (by decide)
      | first :: second :: str => cases short
  | integer value =>
      obtain ⟨first, others, text, other⟩ := formatInteger_eq_cons value
      rw [Argument.text, text]
      intro same
      exact other (List.head_eq_of_cons_eq same)

end Argument

namespace TextWriter

@[simp] theorem capacity_insert (writer : TextWriter) (argument : Argument) :
    (writer.insert argument).capacity = writer.capacity := by
  cases argument with
  | bool value => exact writer.capacity_append _
  | char value =>
      rw [insert, appendChar_eq]
      exact writer.capacity_append _
  | string value => exact writer.capacity_append _
  | integer value =>
      rw [insert, insertInteger]
      split <;> rfl

theorem text_append_of_room {writer : TextWriter} {str : List UInt8}
    (room : writer.text.length + str.length ≤ writer.maxSize) :
    (writer.append str).text = writer.text ++ str := by
  rw [text_append, List.take_of_length_le (by omega)]

theorem text_insert_of_room {writer : TextWriter} {argument : Argument}
    (room : writer.text.length + argument.text.length ≤ writer.maxSize) :
    (writer.insert argument).text = writer.text ++ argument.text := by
  cases argument with
  | bool value => cases value <;> exact text_append_of_room room
  | char value =>
      rw [insert, appendChar_eq]
      exact text_append_of_room room
  | string value => exact text_append_of_room room
  | integer value =>
      rw [Argument.text, length_formatInteger] at room
      have fits : writer.canAppend (formatNeedSpace value) := room
      rw [insert, insertInteger, dif_pos fits]
      rfl

theorem text_foldl_insert {writer : TextWriter} {args : List Argument}
    (room : writer.text.length + (args.flatMap Argument.text).length ≤
      writer.maxSize) :
    (args.foldl insert writer).text =
      writer.text ++ args.flatMap Argument.text := by
  induction args generalizing writer with
  | nil => exact (List.append_nil _).symm
  | cons argument args ih =>
      rw [List.flatMap_cons, List.length_append] at room
      have here := @text_insert_of_room writer argument (by omega)
      rw [List.foldl_cons, ih, here, List.flatMap_cons, List.append_assoc]
      rw [here, List.length_append, maxSize, capacity_insert]
      unfold maxSize at room
      omega

/-- Each argument is written instead of its placeholder. -/
theorem length_write {fmt : List UInt8} {args : List Argument}
    (takes : Takes fmt args) {writer : TextWriter}
    (room : writer.text.length + fmt.length +
      (args.flatMap Argument.text).length ≤ writer.maxSize) :
    (write fmt args writer).text.length + 2 * args.length =
      writer.text.length + fmt.length +
        (args.flatMap Argument.text).length := by
  induction args generalizing fmt writer with
  | nil =>
      simp only [List.flatMap_nil, List.length_nil] at room ⊢
      rw [write, text_append_of_room (by omega), List.length_append]
  | cons value args ih =>
      have length := length_of_placeholder takes.1
      rw [List.flatMap_cons, List.length_append] at room ⊢
      have before : (writer.append (fmt.take (placeholder fmt))).text.length =
          writer.text.length + placeholder fmt := by
        rw [text_append_of_room (by rw [List.length_take]; omega),
          List.length_append, List.length_take]
        omega
      have inserted : ((writer.append (fmt.take (placeholder fmt))).insert
          value).text.length =
            writer.text.length + placeholder fmt + value.text.length := by
        rw [text_insert_of_room, List.length_append, before]
        rw [before, maxSize, capacity_append]
        unfold maxSize at room
        omega
      have later := @ih (fmt.drop (placeholder fmt + 2)) takes.2
        ((writer.append (fmt.take (placeholder fmt))).insert value) (by
          rw [inserted, maxSize, capacity_insert, capacity_append]
          unfold maxSize at room
          omega)
      rw [write, if_pos takes.1, List.length_cons]
      omega

theorem maxSize_init (maxSize : Nat) : (init maxSize).maxSize = maxSize := rfl

theorem text_init (maxSize : Nat) : (init maxSize).text = [] := rfl

/-- Arguments with one text in every large buffer have one text. -/
theorem flatMap_text_of_eventually {first second : List Argument}
    {enough : Nat}
    (same : ∀ maxSize, enough ≤ maxSize →
      first.foldl insert (init maxSize) = second.foldl insert (init maxSize)) :
    first.flatMap Argument.text = second.flatMap Argument.text := by
  have large := same (enough + (first.flatMap Argument.text).length +
    (second.flatMap Argument.text).length) (by omega)
  have texts := congrArg text large
  rw [text_foldl_insert, text_foldl_insert] at texts
  · exact texts
  · rw [maxSize_init, text_init, List.length_nil]
    omega
  · rw [maxSize_init, text_init, List.length_nil]
    omega

end TextWriter

/-! ## Agreement -/

/-- With a large enough text buffer, the text restored from the stored
arguments is the text of the arguments. -/
def Agree (strTable : Option StringTable) (capacity : UInt64)
    (fmt : List UInt8) (args : List Argument) : Prop :=
  ∃ enough, ∀ maxSize, enough ≤ maxSize →
    BinaryRestoreWriter.writeBinary strTable fmt
        (storedArgs strTable capacity fmt args)
        (storedArgs strTable capacity fmt args).length (.init maxSize) =
      some (TextWriter.write fmt args (.init maxSize))

/-- The arguments that the format string takes are readable, and behind the
last one the header of a composed type still fits, unless it is `{}`. -/
structure Restorable (capacity : UInt64) (fmt : List UInt8)
    (args : List Argument) : Prop where
  readable : Readable fmt (used fmt args)
  room : ∀ argument, (used fmt args).getLast? = some argument →
    argument = .string braces ∨
      storedLength (used fmt args) + 3 ≤ capacity.toNat

/-- No string is empty or longer than 253 bytes, and behind the last argument
the header of a composed type still fits, unless the argument is `{}`. -/
structure AlwaysRestorable (capacity : UInt64) (args : List Argument) :
    Prop where
  storable : ∀ argument ∈ args, argument.Storable
  room : ∀ argument, args.getLast? = some argument →
    argument = .string braces ∨ storedLength args + 3 ≤ capacity.toNat

variable {strTable : Option StringTable} {capacity : UInt64}

theorem storedLength_placed_le {capacity offset : Nat}
    (within : offset ≤ capacity) (args : List Argument) :
    offset + storedLength (placed capacity offset args) ≤ capacity := by
  induction args generalizing offset with
  | nil => exact within
  | cons value args ih =>
      rw [placed]
      split
      · have later := @ih (offset + value.stored.length) (by omega)
        rw [storedLength_cons]
        omega
      · exact ih within

/-- The text restored is that of the arguments that found room. -/
theorem writeBinary_placed {fmt : List UInt8} {args items : List Argument}
    (found : placed capacity.toNat 0 (used fmt args) = items)
    (takes : Takes fmt items) (readable : Readable fmt items)
    (writer : TextWriter) :
    BinaryRestoreWriter.writeBinary strTable fmt
        (storedArgs strTable capacity fmt args)
        (storedArgs strTable capacity fmt args).length writer =
      some (TextWriter.write fmt items writer) := by
  have within := storedLength_placed_le (Nat.zero_le capacity.toNat)
    (used fmt args)
  have below := capacity.toNat_lt
  rw [storedArgs_eq, found]
  rw [found] at within
  exact BinaryRestoreWriter.writeBinary_stored takes readable (by omega)
    writer

theorem storedLength_le_of_prefix {initial args : List Argument}
    (isPrefix : initial <+: args) :
    storedLength initial ≤ storedLength args := by
  obtain ⟨others, rfl⟩ := isPrefix
  rw [storedLength_append]
  exact Nat.le_add_right _ _

theorem AlwaysRestorable.of_prefix {initial args : List Argument}
    (restorable : AlwaysRestorable capacity args)
    (fits : storedLength args ≤ capacity.toNat)
    (isPrefix : initial <+: args) : AlwaysRestorable capacity initial := by
  refine ⟨fun argument mem =>
    restorable.storable argument (isPrefix.subset mem), ?_⟩
  intro argument last
  obtain ⟨others, rfl⟩ := isPrefix
  cases final : others.getLast? with
  | none =>
      rw [List.getLast?_eq_none_iff] at final
      subst final
      rw [List.append_nil] at restorable
      exact restorable.room argument last
  | some value =>
      right
      rw [storedLength_append] at fits
      rcases restorable.room value (by
        rw [List.getLast?_append, final, Option.some_or]) with rfl | room
      · have four : (Argument.string braces).stored.length = 4 := rfl
        obtain ⟨before, rfl⟩ := List.getLast?_eq_some_iff.mp final
        rw [storedLength_append, storedLength_singleton, four] at fits
        omega
      · rw [storedLength_append] at room
        omega

/-- What a format string takes is restored from its items. -/
theorem Restorable.agree {fmt : List UInt8} {args : List Argument}
    (restorable : Restorable capacity fmt args)
    (fits : storedLength (used fmt args) ≤ capacity.toNat) :
    Agree strTable capacity fmt args := by
  have readable := restorable.readable
  have takes := takes_used fmt args
  refine ⟨0, fun maxSize _ => ?_⟩
  by_cases room : storedLength (used fmt args) + 3 ≤ capacity.toNat
  · have all : placed capacity.toNat 0 (used fmt args) = used fmt args :=
      placed_of_room (by omega)
    rw [writeBinary_placed all takes readable, TextWriter.write_used]
  · cases final : (used fmt args).getLast? with
    | none =>
        rw [List.getLast?_eq_none_iff] at final
        have none : placed capacity.toNat 0 (used fmt args) = [] := by
          rw [final]
          rfl
        rw [writeBinary_placed none trivial trivial,
          ← TextWriter.write_used fmt args, final]
    | some value =>
        obtain ⟨initial, split⟩ := List.getLast?_eq_some_iff.mp final
        obtain rfl : value = .string braces :=
          (restorable.room value final).resolve_right room
        -- The argument `{}` is left out, and its placeholder reads the same.
        have four : (Argument.string braces).stored.length = 4 := rfl
        rw [split] at takes readable fits room
        rw [storedLength_append, storedLength_singleton, four] at fits room
        have shorter : placed capacity.toNat 0 (used fmt args) = initial := by
          rw [split, placed_append, placed_of_room (by omega), placed,
            if_neg (by omega)]
          exact List.append_nil initial
        rw [writeBinary_placed shorter takes.of_append readable.of_append,
          ← TextWriter.write_used fmt args, split, TextWriter.write_braces]

/-- Restorable arguments are restored in every format string. -/
theorem AlwaysRestorable.restorable {args : List Argument}
    (restorable : AlwaysRestorable capacity args)
    (fits : storedLength args ≤ capacity.toNat) (fmt : List UInt8) :
    Restorable capacity fmt args := by
  have taken := restorable.of_prefix fits (used_isPrefix fmt args)
  exact ⟨readable_of_storable taken.storable fmt, taken.room⟩

/-! ## Where they differ -/

/-- An argument that is left out reads as a placeholder. -/
theorem eq_braces_of_left_out {args : List Argument} {argument : Argument}
    (same : (placed capacity.toNat 0 (args ++ [argument])).flatMap
        Argument.stored =
      (placed capacity.toNat 0 args).flatMap Argument.stored)
    (before : ∀ fmt, Agree strTable capacity fmt args)
    (agree : ∀ fmt, Agree strTable capacity fmt (args ++ [argument])) :
    argument = .string braces := by
  have takes := takes_blanks (args ++ [argument]) []
  rw [List.append_nil] at takes
  obtain ⟨first, shorter⟩ := before (blanks (args ++ [argument]).length)
  obtain ⟨second, longer⟩ := agree (blanks (args ++ [argument]).length)
  have stored : storedArgs strTable capacity
      (blanks (args ++ [argument]).length) (args ++ [argument]) =
        storedArgs strTable capacity (blanks (args ++ [argument]).length)
          args := by
    rw [storedArgs_eq, storedArgs_eq, used_of_takes takes,
      used_of_takes takes.of_append, same]
  have texts := @TextWriter.flatMap_text_of_eventually
    (args ++ [argument]) (args ++ [Argument.string braces])
    (first + second) <| by
      intro maxSize enough
      have one := shorter maxSize (by omega)
      have other := longer maxSize (by omega)
      rw [stored, one, Option.some.injEq, TextWriter.write_blanks,
        List.length_append, List.length_singleton,
        TextWriter.write_blanks_succ] at other
      exact other.symm
  rw [List.flatMap_append, List.flatMap_append, List.append_cancel_left_eq,
    List.flatMap_singleton, List.flatMap_singleton] at texts
  exact Argument.eq_of_text_eq_braces texts

/-- An argument in the place of one that is left out reads too early. -/
theorem not_agree_of_early {args : List Argument} {argument : Argument}
    (found : placed capacity.toNat 0
        (args ++ [Argument.string braces] ++ [argument]) = args ++ [argument])
    (storable : ∀ other ∈ args ++ [argument], other.Storable)
    (short : argument.stored.length = 2) :
    ∃ fmt, ¬Agree strTable capacity fmt
      (args ++ [Argument.string braces] ++ [argument]) := by
  have same : (args ++ [Argument.string braces] ++ [argument]).length =
      (args ++ [argument]).length + 1 := by
    simp only [List.length_append, List.length_singleton]
  have takes := takes_blanks (args ++ [Argument.string braces] ++ [argument]) []
  have fewer := takes_blanks (args ++ [argument] ++ [Argument.string braces]) []
  rw [List.append_nil] at takes fewer
  rw [List.length_append, List.length_singleton] at fewer
  refine
    ⟨blanks (args ++ [Argument.string braces] ++ [argument]).length, ?_⟩
  rintro ⟨enough, agree⟩
  have texts := @TextWriter.flatMap_text_of_eventually
    (args ++ [argument] ++ [Argument.string braces])
    (args ++ [Argument.string braces] ++ [argument]) enough <| by
      intro maxSize large
      have here := agree maxSize large
      rw [writeBinary_placed (by rw [used_of_takes takes, found])
        (by rw [same]; exact fewer.of_append)
        (readable_of_storable storable _), Option.some.injEq,
        TextWriter.write_blanks, same, TextWriter.write_blanks_succ] at here
      exact here
  simp only [List.append_assoc, List.flatMap_append,
    List.append_cancel_left_eq, List.flatMap_singleton] at texts
  exact Argument.text_ne_of_short short texts

namespace BinaryRestoreWriter

theorem writeBinary_placeholder {argsLength : Nat} (left : argsLength ≠ 0)
    (fmt memory : List UInt8) (writer : TextWriter) :
    writeBinary strTable (braces ++ fmt) memory argsLength writer =
      (writeArgument strTable memory writer).bind fun written =>
        writeBinary strTable fmt (memory.drop written.1.toNat)
          (Foundation.sizeSub argsLength written.1.toNat) written.2 := by
  rw [writeBinary, if_neg left, placeholder_braces]
  dsimp only
  rw [List.take_zero, TextWriter.append_nil]
  rfl

theorem writeBinary_nil (memory : List UInt8) (argsLength : Nat)
    (writer : TextWriter) :
    writeBinary strTable [] memory argsLength writer = some writer := by
  rw [writeBinary, TextWriter.append_nil]
  split
  · rfl
  · dsimp only
    rw [List.take_nil, TextWriter.append_nil]
    rfl

/-- The item of a string of any length. -/
def stringItem (str : List UInt8) : List UInt8 :=
  BinaryTypeCode.string.value :: UInt8.ofNat str.length :: str

/-- The width that is computed for the item. -/
def stringWidth (str : List UInt8) : UInt8 :=
  1 + UInt8.ofNat str.length + 1

theorem length_stringItem (str : List UInt8) :
    (stringItem str).length = str.length + 2 := rfl

theorem writeBinary_stringItem (fmt str : List UInt8)
    (writer : TextWriter) :
    writeBinary strTable (braces ++ fmt) (stringItem str)
        (stringItem str).length writer =
      writeBinary strTable fmt
        ((stringItem str).drop (stringWidth str).toNat)
        (Foundation.sizeSub (stringItem str).length (stringWidth str).toNat)
        (writer.append (str.take (str.length % 256))) := by
  have length : (UInt8.ofNat str.length).toNat = str.length % 256 :=
    UInt8.toNat_ofNat'
  have written : writeArgument strTable (stringItem str) writer =
      some (stringWidth str,
        writer.append (str.take (str.length % 256))) := by
    rw [stringItem, writeArgument_string, length]
    · rfl
    · rw [length]
      exact Nat.mod_le _ _
  have nonempty : (stringItem str).length ≠ 0 := Nat.succ_ne_zero _
  rw [writeBinary_placeholder nonempty, written, Option.bind_some]

end BinaryRestoreWriter

/-- What agreement says of the last argument, after the ones before it. -/
theorem Agree.last {args : List Argument} {argument : Argument}
    {fmt : List UInt8}
    (agree : Agree strTable capacity (blanks args.length ++ (braces ++ fmt))
      (args ++ [argument]))
    (found : placed capacity.toNat 0 (args ++ [argument]) =
      args ++ [argument])
    (storable : ∀ other ∈ args, other.Storable) :
    ∃ enough, ∀ maxSize, enough ≤ maxSize →
      BinaryRestoreWriter.writeBinary strTable (braces ++ fmt)
          argument.stored argument.stored.length
          (args.foldl TextWriter.insert (.init maxSize)) =
        some (((args ++ [argument]).foldl TextWriter.insert
          (.init maxSize)).append fmt) := by
  have before := takes_blanks args (braces ++ fmt)
  have takes : Takes (blanks args.length ++ (braces ++ fmt))
      (args ++ [argument]) := by
    apply before.append
    rw [rest_blanks]
    exact takes_placeholder fmt argument
  have within := storedLength_placed_le (Nat.zero_le capacity.toNat)
    (args ++ [argument])
  have below := capacity.toNat_lt
  obtain ⟨enough, agree⟩ := agree
  refine ⟨enough, fun maxSize large => ?_⟩
  have here := agree maxSize large
  rw [storedArgs_eq, used_of_takes takes, found, List.flatMap_append,
    List.flatMap_singleton] at here
  rw [found, storedLength_append, storedLength_singleton] at within
  rw [BinaryRestoreWriter.writeBinary_of_takes before storable
    (by rw [List.length_append]; unfold storedLength at within; omega),
    rest_blanks, TextWriter.fill_blanks, TextWriter.write_of_takes before,
    rest_blanks, TextWriter.fill_blanks, TextWriter.write_placeholder,
    TextWriter.write] at here
  rw [here, List.foldl_append]
  rfl

theorem foldl_insert_string (args : List Argument) (str : List UInt8)
    (writer : TextWriter) :
    (args ++ [Argument.string str]).foldl TextWriter.insert writer =
      (args.foldl TextWriter.insert writer).append str := by
  rw [List.foldl_append]
  rfl

/-- A string whose length does not fit in a byte is cut off. -/
theorem not_agree_of_cut {args : List Argument} {str : List UInt8}
    (found : placed capacity.toNat 0 (args ++ [.string str]) =
      args ++ [.string str])
    (storable : ∀ argument ∈ args, argument.Storable)
    (item : (Argument.string str).stored =
      BinaryRestoreWriter.stringItem str)
    (long : 256 ≤ str.length) :
    ¬Agree strTable capacity (blanks args.length ++ (braces ++ []))
      (args ++ [.string str]) := by
  intro agree
  obtain ⟨enough, last⟩ := agree.last found storable
  have texts := @TextWriter.flatMap_text_of_eventually
    (args ++ [.string (str.take (str.length % 256))])
    (args ++ [.string str]) enough <| by
      intro maxSize large
      have here := last maxSize large
      rw [item, BinaryRestoreWriter.writeBinary_stringItem,
        BinaryRestoreWriter.writeBinary_nil, Option.some.injEq,
        TextWriter.append_nil] at here
      rw [foldl_insert_string]
      exact here
  rw [List.flatMap_append, List.flatMap_append, List.append_cancel_left_eq,
    List.flatMap_singleton, List.flatMap_singleton] at texts
  have lengths := congrArg List.length texts
  simp only [Argument.text, List.length_take] at lengths
  omega

/-- The item of a string of 254 bytes has no width, so it is read again. -/
theorem not_agree_of_repeat {args : List Argument} {str : List UInt8}
    (found : placed capacity.toNat 0 (args ++ [.string str]) =
      args ++ [.string str])
    (storable : ∀ argument ∈ args, argument.Storable)
    (item : (Argument.string str).stored =
      BinaryRestoreWriter.stringItem str)
    (long : str.length = 254) :
    ¬Agree strTable capacity
      (blanks args.length ++ (braces ++ (braces ++ [])))
      (args ++ [.string str]) := by
  intro agree
  obtain ⟨enough, last⟩ := agree.last found storable
  have whole : str.take (str.length % 256) = str :=
    List.take_of_length_le (by omega)
  have width : (BinaryRestoreWriter.stringWidth str).toNat = 0 := by
    rw [BinaryRestoreWriter.stringWidth, long]
    rfl
  have texts := @TextWriter.flatMap_text_of_eventually
    (args ++ [.string str] ++ [.string str])
    (args ++ [.string str] ++ [.string braces]) enough <| by
      intro maxSize large
      have here := last maxSize large
      rw [item, BinaryRestoreWriter.writeBinary_stringItem, width, whole,
        List.drop_zero, Foundation.sizeSub_of_le (Nat.zero_le _)
          (by rw [BinaryRestoreWriter.length_stringItem]; omega),
        Nat.sub_zero, BinaryRestoreWriter.writeBinary_stringItem,
        BinaryRestoreWriter.writeBinary_nil, Option.some.injEq, whole,
        List.append_nil] at here
      simp only [foldl_insert_string] at here ⊢
      exact here
  simp only [List.append_assoc, List.flatMap_append,
    List.append_cancel_left_eq, List.flatMap_singleton] at texts
  have lengths : str.length = 2 := congrArg List.length texts
  omega

/-- The item of a string of 255 bytes has width 1, so its length is read as a
type code, which it is not. -/
theorem not_agree_of_shift {args : List Argument} {str : List UInt8}
    (found : placed capacity.toNat 0 (args ++ [.string str]) =
      args ++ [.string str])
    (storable : ∀ argument ∈ args, argument.Storable)
    (item : (Argument.string str).stored =
      BinaryRestoreWriter.stringItem str)
    (long : str.length = 255) :
    ¬Agree strTable capacity
      (blanks args.length ++ (braces ++ (braces ++ [])))
      (args ++ [.string str]) := by
  intro agree
  obtain ⟨enough, last⟩ := agree.last found storable
  have whole : str.take (str.length % 256) = str :=
    List.take_of_length_le (by omega)
  have width : (BinaryRestoreWriter.stringWidth str).toNat = 1 := by
    rw [BinaryRestoreWriter.stringWidth, long]
    rfl
  have length := BinaryRestoreWriter.length_stringItem str
  have nothing (writer : TextWriter) :
      BinaryRestoreWriter.writeArgument strTable
        ((BinaryRestoreWriter.stringItem str).drop 1) writer =
          some (1, writer) := by
    rw [BinaryRestoreWriter.stringItem, long, List.drop_one, List.tail_cons,
      BinaryRestoreWriter.writeArgument]
    rfl
  have texts := @TextWriter.flatMap_text_of_eventually
    (args ++ [.string str])
    (args ++ [.string str] ++ [.string braces]) enough <| by
      intro maxSize large
      have here := last maxSize large
      rw [item, BinaryRestoreWriter.writeBinary_stringItem, width, whole,
        Foundation.sizeSub_of_le (by omega) (by omega),
        BinaryRestoreWriter.writeBinary_placeholder (by omega), nothing,
        Option.bind_some, BinaryRestoreWriter.writeBinary_nil,
        Option.some.injEq, List.append_nil] at here
      simp only [foldl_insert_string] at here ⊢
      exact here
  simp only [List.append_assoc, List.flatMap_append,
    List.append_cancel_left_eq, List.flatMap_singleton] at texts
  have lengths := congrArg List.length texts
  have two : (Argument.string braces).text.length = 2 := rfl
  rw [List.length_append, two] at lengths
  omega

/-- An argument that found its room behind others is storable. -/
theorem storable_of_agree {args : List Argument} {argument : Argument}
    (found : placed capacity.toNat 0 (args ++ [argument]) =
      args ++ [argument])
    (storable : ∀ other ∈ args, other.Storable)
    (nonempty : argument ≠ .string [])
    (agree : ∀ fmt, Agree strTable capacity fmt (args ++ [argument])) :
    argument.Storable := by
  rintro str rfl
  refine ⟨fun empty => nonempty (by rw [empty]), ?_⟩
  by_contra long
  have item : (Argument.string str).stored =
      BinaryRestoreWriter.stringItem str := by
    have two : 1 < str.length := by omega
    exact Argument.storedString_of_long two
  by_cases cut : 256 ≤ str.length
  · exact not_agree_of_cut found storable item cut (agree _)
  · by_cases shift : str.length = 255
    · exact not_agree_of_shift found storable item shift (agree _)
    · exact not_agree_of_repeat found storable item (by omega) (agree _)

/-- Where the string `{}` was left out at the end of the buffer, an argument
that still fits is read in its place. -/
theorem not_agree_behind_braces {initial : List Argument}
    {argument : Argument} (before : ∀ other ∈ initial, other.Storable)
    (two : 2 ≤ argument.stored.length)
    (fits : storedLength initial + (Argument.string braces).stored.length +
      argument.stored.length ≤ capacity.toNat)
    (full : ¬storedLength initial + (Argument.string braces).stored.length +
      3 ≤ capacity.toNat) :
    ∃ fmt, ¬Agree strTable capacity fmt
      (initial ++ [.string braces] ++ [argument]) := by
  have four : (Argument.string braces).stored.length = 4 := rfl
  rw [four] at fits full
  have short : argument.stored.length = 2 := by omega
  have found : placed capacity.toNat 0
      (initial ++ [Argument.string braces] ++ [argument]) =
        initial ++ [argument] := by
    rw [placed_append, placed_append, placed_of_room (by omega),
      placed, if_neg (by omega), placed, List.append_nil, placed,
      if_pos (by omega)]
    rfl
  have storable : ∀ other ∈ initial ++ [argument], other.Storable := by
    intro other mem
    rcases List.mem_append.mp mem with mem | mem
    · exact before other mem
    · rw [List.mem_singleton.mp mem]
      exact Argument.storable_of_short short
  exact not_agree_of_early found storable short

theorem AlwaysRestorable.snoc {args : List Argument} {argument : Argument}
    (before : AlwaysRestorable capacity args)
    (fits : storedLength (args ++ [argument]) ≤ capacity.toNat)
    (agreeBefore : ∀ fmt, Agree strTable capacity fmt args)
    (agree : ∀ fmt, Agree strTable capacity fmt (args ++ [argument])) :
    AlwaysRestorable capacity (args ++ [argument]) := by
  rw [storedLength_append, storedLength_singleton] at fits
  have last {other : Argument}
      (final : (args ++ [argument]).getLast? = some other) :
      other = argument := by
    rw [List.getLast?_concat, Option.some.injEq] at final
    exact final.symm
  have all (here : argument.Storable) :
      ∀ other ∈ args ++ [argument], other.Storable := by
    intro other mem
    rcases List.mem_append.mp mem with mem | mem
    · exact before.storable other mem
    · rwa [List.mem_singleton.mp mem]
  have leftOut (full : placed capacity.toNat
      (storedLength (placed capacity.toNat 0 args)) [argument] = [] ∨
        argument.stored = []) : argument = .string braces := by
    apply eq_braces_of_left_out ?_ agreeBefore agree
    rw [placed_append, Nat.zero_add, List.flatMap_append]
    rcases full with none | none
    · rw [none]
      exact List.append_nil _
    · rw [placed]
      split
      · rw [placed, List.flatMap_singleton, none]
        exact List.append_nil _
      · exact List.append_nil _
  by_cases empty : argument = .string []
  · have braced := leftOut (.inr (by rw [empty]; rfl))
    rw [empty] at braced
    cases braced
  · have two := Argument.stored_length_pos empty
    by_cases room : storedLength args + 3 + argument.stored.length ≤
        capacity.toNat
    · refine ⟨all (storable_of_agree (placed_of_room ?_) before.storable empty
        agree), ?_⟩
      · rw [storedLength_append, storedLength_singleton]
        omega
      · intro other final
        right
        rw [storedLength_append, storedLength_singleton]
        omega
    · by_cases free : args = [] ∨ storedLength args + 3 ≤ capacity.toNat
      · have placedBefore : placed capacity.toNat 0 args = args := by
          rcases free with none | free
          · rw [none]
            rfl
          · exact placed_of_room (by omega)
        have braced := leftOut (.inl (by
          rw [placedBefore, placed, if_neg room]
          rfl))
        refine ⟨all ?_, fun other final => .inl (by rw [last final, braced])⟩
        rw [braced]
        rintro str same
        cases same
        decide
      · -- The last argument before this one is `{}` and was left out.
        obtain ⟨nonempty, full⟩ := not_or.mp free
        obtain ⟨initial, dropped, split⟩ :=
          (List.eq_nil_or_concat args).resolve_left nonempty
        rw [List.concat_eq_append] at split
        subst split
        obtain rfl : dropped = .string braces :=
          (before.room dropped List.getLast?_concat).resolve_right full
        rw [storedLength_append, storedLength_singleton] at fits full
        obtain ⟨fmt, differs⟩ := not_agree_behind_braces (fun other mem =>
          before.storable other (List.mem_append_left _ mem)) two fits full
        exact absurd (agree fmt) differs

/-- Within the size of the buffer, all initial parts of the arguments are
restored in all format strings exactly when the arguments are restorable. -/
theorem agree_all_iff (strTable : Option StringTable)
    {capacity : UInt64} {args : List Argument}
    (fits : storedLength args ≤ capacity.toNat) :
    (∀ fmt initial, initial <+: args →
        Agree strTable capacity fmt initial) ↔
      AlwaysRestorable capacity args := by
  constructor
  · intro agree
    induction args using List.reverseRecOn with
    | nil => exact ⟨by simp, by simp⟩
    | append_singleton args argument ih =>
        have part : args <+: args ++ [argument] := List.prefix_append _ _
        have within := storedLength_le_of_prefix part
        have before := ih (by omega) fun fmt initial isPrefix =>
          agree fmt initial (isPrefix.trans part)
        exact before.snoc fits (fun fmt => agree fmt args part)
          fun fmt => agree fmt _ List.prefix_rfl
  · intro restorable fmt initial isPrefix
    have within := storedLength_le_of_prefix isPrefix
    have here := restorable.of_prefix fits isPrefix
    have taken := storedLength_le_of_prefix (used_isPrefix fmt initial)
    exact (here.restorable (by omega) fmt).agree (by omega)

/-! ## One format string -/

/-- The items of the strings tell their lengths, and the header of a composed
type fits behind all of them. -/
structure Plain (capacity : UInt64) (items : List Argument) : Prop where
  short : ∀ str, .string str ∈ items → str.length ≤ 253
  room : storedLength items + 3 ≤ capacity.toNat

/-- The arguments that have an item. -/
def withItem (args : List Argument) : List Argument :=
  args.filter fun argument => argument.stored ≠ []

theorem flatMap_withItem {α : Type} {item : Argument → List α}
    (nothing : ∀ argument, argument.stored = [] → item argument = [])
    (args : List Argument) :
    (withItem args).flatMap item = args.flatMap item := by
  induction args with
  | nil => rfl
  | cons argument args ih =>
      rw [withItem] at ih ⊢
      by_cases empty : argument.stored = []
      · rw [List.filter_cons_of_neg (by simpa using empty), ih,
          List.flatMap_cons, nothing argument empty, List.nil_append]
      · rw [List.filter_cons_of_pos (by simpa using empty),
          List.flatMap_cons, List.flatMap_cons, ih]

theorem Argument.eq_of_stored_eq_nil {argument : Argument}
    (none : argument.stored = []) : argument = .string [] := by
  by_contra nonempty
  have two := stored_length_pos nonempty
  rw [none] at two
  cases two

namespace Plain

variable {fmt : List UInt8} {args : List Argument}

theorem storable (plain : Plain capacity args) {argument : Argument}
    (taken : argument ∈ args) (item : argument.stored ≠ []) :
    argument.Storable := by
  rintro str rfl
  refine ⟨fun empty => item ?_, plain.short str taken⟩
  rw [empty]
  rfl

/-- The text restored is that of the arguments with an item. -/
theorem writeBinary (plain : Plain capacity (used fmt args))
    (writer : TextWriter) :
    BinaryRestoreWriter.writeBinary strTable fmt
        (storedArgs strTable capacity fmt args)
        (storedArgs strTable capacity fmt args).length writer =
      some (TextWriter.write fmt (withItem (used fmt args)) writer) := by
  have room := plain.room
  have below := capacity.toNat_lt
  have items : (withItem (used fmt args)).flatMap Argument.stored =
      (used fmt args).flatMap Argument.stored :=
    flatMap_withItem (fun _ none => none) _
  have same : storedLength (withItem (used fmt args)) =
      storedLength (used fmt args) := congrArg List.length items
  rw [storedArgs_eq, placed_of_room (by omega), ← items]
  apply BinaryRestoreWriter.writeBinary_stored _ _ (by omega)
  · exact (takes_used fmt args).of_length_le (List.length_filter_le _ _)
  · apply readable_of_storable
    intro argument member
    obtain ⟨taken, item⟩ := List.mem_filter.mp member
    exact plain.storable taken (of_decide_eq_true item)

/-- The placeholder of an empty string stays: two characters too many. -/
theorem stored_ne_nil (plain : Plain capacity (used fmt args))
    (agree : Agree strTable capacity fmt args) {argument : Argument}
    (taken : argument ∈ used fmt args) : argument.stored ≠ [] := by
  obtain ⟨enough, agree⟩ := agree
  have texts : (withItem (used fmt args)).flatMap Argument.text =
      (used fmt args).flatMap Argument.text := by
    apply flatMap_withItem
    intro argument none
    rw [Argument.eq_of_stored_eq_nil none]
    rfl
  have fewer : (withItem (used fmt args)).length ≤ (used fmt args).length :=
    List.length_filter_le _ _
  have takes := takes_used fmt args
  generalize large : enough + fmt.length +
    ((used fmt args).flatMap Argument.text).length = maxSize
  have room : (TextWriter.init maxSize).text.length + fmt.length +
      ((used fmt args).flatMap Argument.text).length ≤
        (TextWriter.init maxSize).maxSize := by
    rw [TextWriter.text_init, TextWriter.maxSize_init, List.length_nil]
    omega
  have written := agree maxSize (by omega)
  rw [plain.writeBinary, Option.some.injEq, ← TextWriter.write_used fmt args]
    at written
  have restored := TextWriter.length_write (takes.of_length_le fewer)
    (by rw [texts]; exact room)
  have expected := TextWriter.length_write takes room
  rw [written, texts] at restored
  have all : (withItem (used fmt args)).length = (used fmt args).length := by
    omega
  exact of_decide_eq_true (List.length_filter_eq_length_iff.mp all argument
    taken)

theorem restorable (plain : Plain capacity (used fmt args))
    (agree : Agree strTable capacity fmt args) :
    Restorable capacity fmt args := by
  refine ⟨readable_of_storable ?_ _, fun _ _ => Or.inr plain.room⟩
  intro argument taken
  exact plain.storable taken (plain.stored_ne_nil agree taken)

end Plain

/-- The text restored is the text of the arguments where those that the format
string takes are restorable.  Where their items tell their lengths and leave
room for a header, only then. -/
theorem agree_iff_restorable (strTable : Option StringTable)
    {capacity : UInt64} {fmt : List UInt8} {args : List Argument}
    (fits : storedLength (used fmt args) ≤ capacity.toNat) :
    (Restorable capacity fmt args → Agree strTable capacity fmt args) ∧
      (Plain capacity (used fmt args) →
        Agree strTable capacity fmt args →
        Restorable capacity fmt args) :=
  ⟨fun restorable => restorable.agree fits,
    fun plain agree => plain.restorable agree⟩

/-- A string and a character, and an empty string that is not taken. -/
theorem agree_twoArguments :
    Agree none 500 (blanks 2)
      [.string (literal ['a', 'b']), .char 97, .string []] := by
  have taken : used (blanks 2)
      [.string (literal ['a', 'b']), .char 97, .string []] =
        [.string (literal ['a', 'b']), .char 97] := rfl
  refine (agree_iff_restorable none ?_).1 ⟨?_, ?_⟩
  · rw [taken]
    decide
  · rw [taken]
    apply readable_of_storable
    rintro argument member str rfl
    simp only [List.mem_cons, List.not_mem_nil, or_false] at member
    rcases member with same | same <;> cases same
    decide
  · rw [taken]
    exact fun _ _ => Or.inr (by decide)

/-- Elsewhere the texts can be equal by coincidence: the string is left out,
and the character and a placeholder read the same. -/
theorem agree_of_coincidence :
    let args : List Argument :=
      [.string (literal ['}', '{']), .char (charByte '}')]
    Agree none 6 (blanks 2) args ∧ ¬Restorable 6 (blanks 2) args := by
  intro args
  have taken : used (blanks 2) args = args := rfl
  have found : placed (6 : UInt64).toNat 0 (used (blanks 2) args) =
      [.char (charByte '}')] := rfl
  constructor
  · refine ⟨0, fun maxSize _ => ?_⟩
    have takes : Takes (blanks 2) [.char (charByte '}')] :=
      (takes_used (blanks 2) args).of_length_le (by decide)
    have storable : (Argument.char (charByte '}')).Storable := by
      rintro str ⟨⟩
    have restored := TextWriter.write_blanks_succ [.char (charByte '}')]
      (.init maxSize)
    have expected := TextWriter.write_blanks args (.init maxSize)
    change TextWriter.write (blanks 2) _ _ = _ at restored expected
    rw [writeBinary_placed found takes ⟨Or.inl storable, trivial⟩, restored,
      expected]
    simp only [args, List.cons_append, List.nil_append, List.foldl_cons,
      List.foldl_nil, TextWriter.insert, TextWriter.appendChar_eq,
      TextWriter.append_append]
    rfl
  · intro restorable
    rcases restorable.room (.char (charByte '}')) rfl with same | room
    · cases same
    · rw [taken] at room
      exact absurd room (by decide)

/-- An empty string leaves its placeholder in the text. -/
theorem not_agree_always :
    ¬∀ (strTable : Option StringTable) (capacity : UInt64)
      (fmt : List UInt8) (args : List Argument),
        storedLength args ≤ capacity.toNat →
          Agree strTable capacity fmt args := by
  intro always
  obtain ⟨enough, agree⟩ := always none 500 braces [.string []] (by decide)
  have here := agree (enough + 2) (by omega)
  have stored : storedArgs none 500 braces [.string []] = [] := by
    rw [storedArgs_eq]
    rfl
  rw [stored, BinaryRestoreWriter.writeBinary, if_pos List.length_nil,
    Option.some.injEq] at here
  have texts := congrArg TextWriter.text here
  rw [TextWriter.text_append_of_room] at texts
  · cases texts
  · rw [TextWriter.text_init, TextWriter.maxSize_init]
    exact Nat.le_add_left 2 enough

end Lights
end Spaceless
