import Spaceless.Lights.Format

/-!
# Filling placeholders

The text and the binary format take the arguments one by one, each at the next
placeholder of what is left of the format string.
-/

namespace Spaceless
namespace Lights

/-! ## The text writer -/

namespace TextWriter

@[ext] theorem ext {first second : TextWriter}
    (capacity : first.capacity = second.capacity)
    (text : first.text = second.text) : first = second := by
  cases first
  cases second
  cases capacity
  cases text
  rfl

@[simp] theorem capacity_append (writer : TextWriter) (str : List UInt8) :
    (writer.append str).capacity = writer.capacity := by
  unfold append
  split <;> rfl

theorem text_append (writer : TextWriter) (str : List UInt8) :
    (writer.append str).text =
      writer.text ++ str.take (writer.maxSize - writer.text.length) := by
  unfold append
  split
  · rename_i fits
    unfold canAppend at fits
    rw [List.take_of_length_le (by omega)]
    rfl
  · rfl

@[simp] theorem append_nil (writer : TextWriter) :
    writer.append [] = writer := by
  apply TextWriter.ext
  · exact writer.capacity_append []
  · rw [text_append, List.take_nil, List.append_nil]

theorem append_append (writer : TextWriter) (first second : List UInt8) :
    (writer.append first).append second = writer.append (first ++ second) := by
  apply TextWriter.ext
  · simp only [capacity_append]
  · have room := writer.occupied
    simp only [text_append, maxSize, capacity_append, List.length_append,
      List.length_take, List.take_append, List.append_assoc]
    congr 3
    omega

theorem appendChar_eq (writer : TextWriter) (character : UInt8) :
    writer.appendChar character = writer.append [character] := by
  unfold appendChar
  apply TextWriter.ext
  · rw [capacity_append]
    split <;> rfl
  · rw [text_append]
    split
    · rename_i fits
      unfold canAppend at fits
      rw [List.take_of_length_le (by rw [List.length_singleton]; omega)]
      rfl
    · rename_i full
      unfold canAppend at full
      have none : writer.maxSize - writer.text.length = 0 := by omega
      rw [none, List.take_zero, List.append_nil]

end TextWriter

/-! ## Placeholders -/

@[simp] theorem placeholder_braces (fmt : List UInt8) :
    placeholder (braces ++ fmt) = 0 := by
  change placeholder (charByte '{' :: charByte '}' :: fmt) = 0
  rw [placeholder, if_pos ⟨rfl, rfl⟩]

/-- A format string around its first placeholder. -/
theorem split_placeholder {fmt : List UInt8}
    (found : placeholder fmt < fmt.length) :
    fmt.take (placeholder fmt) ++ (braces ++ fmt.drop (placeholder fmt + 2)) =
      fmt := by
  induction fmt with
  | nil => cases found
  | cons character fmt ih =>
      rw [placeholder] at found ⊢
      split
      · rename_i opens
        obtain ⟨rfl, closes⟩ := opens
        cases fmt with
        | nil => cases closes
        | cons next fmt =>
            cases closes
            rfl
      · rename_i other
        rw [if_neg other, List.length_cons] at found
        rw [List.take_succ_cons, Nat.add_right_comm, List.drop_succ_cons,
          List.cons_append, ih (by omega)]

theorem length_of_placeholder {fmt : List UInt8}
    (found : placeholder fmt < fmt.length) :
    fmt.length = placeholder fmt + 2 +
      (fmt.drop (placeholder fmt + 2)).length := by
  have split := congrArg List.length (split_placeholder found)
  have two : braces.length = 2 := rfl
  rw [List.length_append, List.length_append, List.length_take, two] at split
  omega

/-- So many placeholders. -/
def blanks : Nat → List UInt8
  | 0 => []
  | count + 1 => braces ++ blanks count

/-- Each argument finds a placeholder. -/
def Takes : List UInt8 → List Argument → Prop
  | _, [] => True
  | fmt, _ :: args =>
      placeholder fmt < fmt.length ∧
        Takes (fmt.drop (placeholder fmt + 2)) args

/-- What is left of the format string after the arguments. -/
def rest : List UInt8 → List Argument → List UInt8
  | fmt, [] => fmt
  | fmt, _ :: args => rest (fmt.drop (placeholder fmt + 2)) args

/-- The arguments that find a placeholder. -/
def used : List UInt8 → List Argument → List Argument
  | _, [] => []
  | fmt, value :: args =>
      if placeholder fmt < fmt.length then
        value :: used (fmt.drop (placeholder fmt + 2)) args
      else []

namespace TextWriter

/-- The text up to the placeholder of the last argument. -/
def fill : List UInt8 → List Argument → TextWriter → TextWriter
  | _, [], writer => writer
  | fmt, value :: args, writer =>
      fill (fmt.drop (placeholder fmt + 2)) args
        ((writer.append (fmt.take (placeholder fmt))).insert value)

theorem write_of_takes {fmt : List UInt8} {args : List Argument}
    (takes : Takes fmt args) (more : List Argument) (writer : TextWriter) :
    write fmt (args ++ more) writer =
      write (rest fmt args) more (fill fmt args writer) := by
  induction args generalizing fmt writer with
  | nil => rfl
  | cons value args ih =>
      rw [List.cons_append, write, rest, fill]
      rw [if_pos takes.1]
      exact ih takes.2 _

theorem write_used (fmt : List UInt8) (args : List Argument)
    (writer : TextWriter) :
    write fmt (used fmt args) writer = write fmt args writer := by
  induction args generalizing fmt writer with
  | nil => rfl
  | cons value args ih =>
      rw [used, write]
      split
      · rename_i found
        rw [write]
        rw [if_pos found, ih]
      · rename_i last
        rw [write, List.take_of_length_le (Nat.le_of_not_lt last)]

/-- The argument `{}` leaves a placeholder as it is. -/
theorem write_braces (fmt : List UInt8) (args : List Argument)
    (writer : TextWriter) :
    write fmt (args ++ [Argument.string braces]) writer =
      write fmt args writer := by
  induction args generalizing fmt writer with
  | nil =>
      rw [List.nil_append, write, write]
      split
      · rename_i found
        rw [write, insert, append_append, append_append,
          split_placeholder found]
      · rename_i last
        rw [List.take_of_length_le (Nat.le_of_not_lt last)]
  | cons value args ih =>
      rw [List.cons_append, write, write]
      split
      · exact ih _ _
      · rfl

end TextWriter

theorem takes_used (fmt : List UInt8) (args : List Argument) :
    Takes fmt (used fmt args) := by
  induction args generalizing fmt with
  | nil => trivial
  | cons value args ih =>
      rw [used]
      split
      · rename_i found
        exact ⟨found, ih _⟩
      · trivial

theorem used_of_takes {fmt : List UInt8} {args : List Argument}
    (takes : Takes fmt args) : used fmt args = args := by
  induction args generalizing fmt with
  | nil => rfl
  | cons value args ih => rw [used, if_pos takes.1, ih takes.2]

theorem used_isPrefix (fmt : List UInt8) (args : List Argument) :
    used fmt args <+: args := by
  induction args generalizing fmt with
  | nil => exact List.prefix_rfl
  | cons value args ih =>
      rw [used]
      split
      · exact List.cons_prefix_cons.mpr ⟨rfl, ih _⟩
      · exact List.nil_prefix

theorem Takes.of_append {fmt : List UInt8} {args more : List Argument}
    (takes : Takes fmt (args ++ more)) : Takes fmt args := by
  induction args generalizing fmt with
  | nil => trivial
  | cons value args ih => exact ⟨takes.1, ih takes.2⟩

theorem Takes.append {fmt : List UInt8} {args more : List Argument}
    (takes : Takes fmt args) (others : Takes (rest fmt args) more) :
    Takes fmt (args ++ more) := by
  induction args generalizing fmt with
  | nil => exact others
  | cons value args ih => exact ⟨takes.1, ih takes.2 others⟩

/-- Fewer arguments find their placeholders too. -/
theorem Takes.of_length_le {fmt : List UInt8} {args items : List Argument}
    (takes : Takes fmt args) (fewer : items.length ≤ args.length) :
    Takes fmt items := by
  induction items generalizing fmt args with
  | nil => trivial
  | cons item items ih =>
      cases args with
      | nil => cases fewer
      | cons value args =>
          exact ⟨takes.1, ih takes.2 (Nat.le_of_succ_le_succ fewer)⟩

theorem takes_placeholder (fmt : List UInt8) (value : Argument) :
    Takes (braces ++ fmt) [value] := by
  rw [Takes, placeholder_braces]
  exact ⟨Nat.succ_pos _, trivial⟩

/-! ## Format strings of placeholders only -/

theorem takes_blanks (args : List Argument) (fmt : List UInt8) :
    Takes (blanks args.length ++ fmt) args := by
  induction args with
  | nil => trivial
  | cons value args ih =>
      rw [List.length_cons, blanks, List.append_assoc, Takes,
        placeholder_braces]
      exact ⟨Nat.succ_pos _, ih⟩

theorem rest_blanks (args : List Argument) (fmt : List UInt8) :
    rest (blanks args.length ++ fmt) args = fmt := by
  induction args with
  | nil => rfl
  | cons value args ih =>
      rw [List.length_cons, blanks, List.append_assoc, rest,
        placeholder_braces]
      exact ih

theorem TextWriter.fill_blanks (args : List Argument) (fmt : List UInt8)
    (writer : TextWriter) :
    fill (blanks args.length ++ fmt) args writer =
      args.foldl insert writer := by
  induction args generalizing writer with
  | nil => rfl
  | cons value args ih =>
      rw [List.length_cons, blanks, List.append_assoc, fill,
        placeholder_braces, List.take_zero, append_nil, List.foldl_cons]
      exact ih _

theorem TextWriter.write_blanks (args : List Argument)
    (writer : TextWriter) :
    write (blanks args.length) args writer = args.foldl insert writer := by
  have takes := takes_blanks args []
  have written := write_of_takes takes [] writer
  rw [rest_blanks, fill_blanks, List.append_nil, List.append_nil] at written
  rw [written, write, append_nil]

/-- A placeholder without an argument reads as the argument `{}`. -/
theorem TextWriter.write_blanks_succ (args : List Argument)
    (writer : TextWriter) :
    write (blanks (args.length + 1)) args writer =
      (args ++ [Argument.string braces]).foldl insert writer := by
  have all := write_blanks (args ++ [Argument.string braces]) writer
  rw [List.length_append, List.length_singleton, write_braces] at all
  exact all

theorem TextWriter.write_placeholder (fmt : List UInt8) (value : Argument)
    (args : List Argument) (writer : TextWriter) :
    write (braces ++ fmt) (value :: args) writer =
      write fmt args (writer.insert value) := by
  rw [write, placeholder_braces, List.take_zero, append_nil]
  rfl

end Lights
end Spaceless
