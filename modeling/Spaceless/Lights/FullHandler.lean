import Spaceless.Lights.Decimal

/-!
# A text writer with a full handler

When the buffer is full the handler takes its text and the writer goes on with
an empty buffer.  `append` and `handle_full` call each other, so they run with
fuel here.
-/

namespace Spaceless
namespace Lights

/-- A writer whose full handler is set, and what the handler was called
with. -/
structure HandlingWriter where
  writer : TextWriter
  handled : List (List UInt8)

namespace HandlingWriter

/-- `m_full_handler(string_view()); clear();` -/
def callHandler (self : HandlingWriter) : HandlingWriter where
  writer :=
    { capacity := self.writer.capacity
      text := []
      occupied := Nat.lt_of_le_of_lt (Nat.zero_le _) self.writer.occupied }
  handled := self.handled ++ [self.writer.text]

/-- `append(char)`. -/
def appendChar : Nat → HandlingWriter → UInt8 → Option HandlingWriter
  | 0, _, _ => none
  | fuel + 1, self, ch =>
      if fits : self.writer.canAppend 1 then
        some { self with writer := self.writer.push [ch] fits }
      else
        let self := self.callHandler
        if 1 ≤ self.writer.maxSize then appendChar fuel self ch else some self

mutual

/-- `append(StringView)`. -/
def append : Nat → HandlingWriter → List UInt8 → Option HandlingWriter
  | 0, _, _ => none
  | fuel + 1, self, str =>
      if fits : self.writer.canAppend str.length then
        some { self with writer := self.writer.push str fits }
      else do
        let place := self.writer.maxSize - self.writer.text.length
        let self ← append fuel self (str.take place)
        handleFull fuel self (str.drop place)

/-- `handle_full`. -/
def handleFull : Nat → HandlingWriter → List UInt8 → Option HandlingWriter
  | 0, _, _ => none
  | fuel + 1, self, str =>
      let self := self.callHandler
      if str.length ≤ self.writer.maxSize then append fuel self str
      else appendParts fuel self str

/-- The loop of `handle_full`. -/
def appendParts : Nat → HandlingWriter → List UInt8 → Option HandlingWriter
  | 0, _, _ => none
  | fuel + 1, self, str =>
      if str.length = 0 then some self
      else do
        let appendLength :=
          if str.length ≤ self.writer.maxSize then str.length
          else self.writer.maxSize
        let self ← append fuel self (str.take appendLength)
        let self :=
          if appendLength = self.writer.maxSize then self.callHandler else self
        appendParts fuel self (str.drop appendLength)

end

/-- `operator<<` of an integer does not know the handler. -/
def insertInteger (self : HandlingWriter) (number : Integer) :
    HandlingWriter :=
  { self with writer := self.writer.insertInteger number }

end HandlingWriter

/-- A call on a writer. -/
inductive WriterCall
  | char (ch : UInt8)
  | string (str : List UInt8)
  | integer (number : Integer)

/-- The text that a call is to append. -/
def WriterCall.text : WriterCall → List UInt8
  | .char ch => [ch]
  | .string str => str
  | .integer number => decimal number.value

namespace HandlingWriter

/-- One call. -/
def call (fuel : Nat) (self : HandlingWriter) :
    WriterCall → Option HandlingWriter
  | .char ch => self.appendChar fuel ch
  | .string str => self.append fuel str
  | .integer number => some (self.insertInteger number)

/-- One call after another. -/
def run (fuel : Nat) (self : HandlingWriter) :
    List WriterCall → Option HandlingWriter
  | [] => some self
  | first :: calls => do
      let self ← self.call fuel first
      run fuel self calls

/-- The text that went through the writer: what the handler got and the
buffer. -/
def output (self : HandlingWriter) : List UInt8 :=
  self.handled.flatten ++ self.writer.text

/-! ## More fuel -/

/-- More fuel does not change a result. -/
theorem append_succ (fuel : Nat) :
    (∀ {self result : HandlingWriter} {str : List UInt8},
      append fuel self str = some result →
        append (fuel + 1) self str = some result) ∧
    (∀ {self result : HandlingWriter} {str : List UInt8},
      handleFull fuel self str = some result →
        handleFull (fuel + 1) self str = some result) ∧
    ∀ {self result : HandlingWriter} {str : List UInt8},
      appendParts fuel self str = some result →
        appendParts (fuel + 1) self str = some result := by
  induction fuel with
  | zero =>
      refine ⟨?_, ?_, ?_⟩ <;>
        · intro self result str done
          cases done
  | succ fuel inductionHypothesis =>
      obtain ⟨appends, handles, parts⟩ := inductionHypothesis
      refine ⟨?_, ?_, ?_⟩
      · intro self result str done
        rw [append] at done ⊢
        split at done
        case isTrue fits => rw [dif_pos fits, done]
        case isFalse full =>
          obtain ⟨next, first, second⟩ := Option.bind_eq_some_iff.mp done
          rw [dif_neg full]
          apply Option.bind_eq_some_iff.mpr
          exact ⟨next, appends first, handles second⟩
      · intro self result str done
        rw [handleFull] at done ⊢
        split at done
        case isTrue fits =>
          rw [if_pos fits]
          exact appends done
        case isFalse more =>
          rw [if_neg more]
          exact parts done
      · intro self result str done
        rw [appendParts] at done ⊢
        split at done
        case isTrue empty => rw [if_pos empty, done]
        case isFalse nonempty =>
          obtain ⟨next, first, second⟩ := Option.bind_eq_some_iff.mp done
          rw [if_neg nonempty]
          apply Option.bind_eq_some_iff.mpr
          exact ⟨next, appends first, parts second⟩

theorem appendChar_succ {fuel : Nat} {self result : HandlingWriter}
    {ch : UInt8} (done : appendChar fuel self ch = some result) :
    appendChar (fuel + 1) self ch = some result := by
  induction fuel generalizing self with
  | zero => cases done
  | succ fuel inductionHypothesis =>
      rw [appendChar] at done ⊢
      split at done
      case isTrue fits => rw [dif_pos fits, done]
      case isFalse full =>
        rw [dif_neg full]
        dsimp only at done ⊢
        split at done
        case isTrue room =>
          rw [if_pos room]
          exact inductionHypothesis done
        case isFalse room => rw [if_neg room, done]

theorem run_succ {fuel : Nat} {self result : HandlingWriter}
    {calls : List WriterCall} (done : run fuel self calls = some result) :
    run (fuel + 1) self calls = some result := by
  induction calls generalizing self with
  | nil => exact done
  | cons first calls inductionHypothesis =>
      obtain ⟨next, now, later⟩ := Option.bind_eq_some_iff.mp done
      apply Option.bind_eq_some_iff.mpr
      refine ⟨next, ?_, inductionHypothesis later⟩
      cases first with
      | char ch => exact appendChar_succ now
      | string str => exact (append_succ fuel).1 now
      | integer number => exact now

theorem run_of_le {fuel more : Nat} {self result : HandlingWriter}
    {calls : List WriterCall} (done : run fuel self calls = some result)
    (enough : fuel ≤ more) : run more self calls = some result := by
  induction enough with
  | refl => exact done
  | step _ inductionHypothesis => exact run_succ inductionHypothesis

/-- The calls return and leave the writer so. -/
def Reaches (self : HandlingWriter) (calls : List WriterCall)
    (result : HandlingWriter) : Prop :=
  ∃ fuel, run fuel self calls = some result

/-- What the calls leave does not depend on the fuel. -/
theorem Reaches.unique {self first second : HandlingWriter}
    {calls : List WriterCall} (one : self.Reaches calls first)
    (other : self.Reaches calls second) : first = second := by
  obtain ⟨fuel, done⟩ := one
  obtain ⟨more, again⟩ := other
  have most := run_of_le done (Nat.le_max_left fuel more)
  rw [run_of_le again (Nat.le_max_right fuel more)] at most
  exact (Option.some.inj most).symm

theorem Reaches.append {self middle result : HandlingWriter}
    {before after : List WriterCall} (first : self.Reaches before middle)
    (second : middle.Reaches after result) :
    self.Reaches (before ++ after) result := by
  obtain ⟨fuel, now⟩ := first
  obtain ⟨more, later⟩ := second
  refine ⟨max fuel more, ?_⟩
  have now := run_of_le now (Nat.le_max_left fuel more)
  have later := run_of_le later (Nat.le_max_right fuel more)
  clear * - now later
  induction before generalizing self with
  | nil =>
      cases now
      exact later
  | cons first before inductionHypothesis =>
      obtain ⟨next, here, rest⟩ := Option.bind_eq_some_iff.mp now
      apply Option.bind_eq_some_iff.mpr
      exact ⟨next, here, inductionHypothesis rest⟩

/-! ## What a call appends -/

theorem length_le (self : HandlingWriter) :
    self.writer.text.length ≤ self.writer.maxSize := by
  have occupied := self.writer.occupied
  unfold TextWriter.maxSize
  omega

@[simp] theorem output_callHandler (self : HandlingWriter) :
    self.callHandler.output = self.output := by
  simp [output, callHandler]

/-- The text was appended, with the same buffer. -/
structure Appends (before : HandlingWriter) (str : List UInt8)
    (after : HandlingWriter) : Prop where
  capacity : after.writer.capacity = before.writer.capacity
  output : after.output = before.output ++ str

theorem Appends.maxSize {self result : HandlingWriter} {str : List UInt8}
    (appends : self.Appends str result) :
    result.writer.maxSize = self.writer.maxSize := by
  rw [TextWriter.maxSize, TextWriter.maxSize, appends.capacity]

theorem Appends.trans {self middle result : HandlingWriter}
    {first second : List UInt8} (one : self.Appends first middle)
    (other : middle.Appends second result) :
    self.Appends (first ++ second) result where
  capacity := other.capacity.trans one.capacity
  output := by rw [other.output, one.output, List.append_assoc]

theorem appends_callHandler (self : HandlingWriter) :
    self.Appends [] self.callHandler where
  capacity := rfl
  output := by rw [output_callHandler, List.append_nil]

theorem appends_push (self : HandlingWriter) {str : List UInt8}
    (fits : self.writer.canAppend str.length) :
    self.Appends str { self with writer := self.writer.push str fits } where
  capacity := rfl
  output := by
    rw [output, output, TextWriter.push, List.append_assoc]

/-- A string that fits. -/
theorem append_of_fits (fuel : Nat) (self : HandlingWriter)
    {str : List UInt8} (fits : self.writer.canAppend str.length) :
    append (fuel + 1) self str =
      some { self with writer := self.writer.push str fits } := by
  rw [append, dif_pos fits]

/-- What fits in an empty buffer. -/
theorem canAppend_of_empty {self : HandlingWriter} {length : Nat}
    (empty : self.writer.text = []) (le : length ≤ self.writer.maxSize) :
    self.writer.canAppend length := by
  rw [TextWriter.canAppend, empty, List.length_nil, Nat.zero_add]
  exact le

/-- The loop of `handle_full` begins each round with an empty buffer, until
nothing is left. -/
theorem appendParts_appends {fuel : Nat} {self : HandlingWriter}
    {str : List UInt8} (positive : 1 ≤ self.writer.maxSize)
    (empty : str ≠ [] → self.writer.text = [])
    (enough : str.length + 2 ≤ fuel) :
    ∃ result, appendParts fuel self str = some result ∧
      self.Appends str result := by
  induction fuel generalizing self str with
  | zero => omega
  | succ fuel inductionHypothesis =>
      rw [appendParts]
      by_cases done : str.length = 0
      · rw [if_pos done, List.eq_nil_of_length_eq_zero done]
        exact ⟨self, rfl, rfl, (List.append_nil _).symm⟩
      · have text := empty (mt (congrArg List.length) done)
        rw [if_neg done]
        dsimp only
        generalize place : (if str.length ≤ self.writer.maxSize then
          str.length else self.writer.maxSize) = length
        have bounds : 1 ≤ length ∧ length ≤ self.writer.maxSize ∧
            length ≤ str.length := by
          split at place <;> omega
        have fits : self.writer.canAppend (str.take length).length := by
          apply canAppend_of_empty text
          rw [List.length_take]
          omega
        have part := self.appends_push fits
        obtain ⟨more, rfl⟩ : ∃ more, fuel = more + 1 := by
          refine ⟨fuel - 1, ?_⟩
          omega
        rw [append_of_fits more self fits, Option.bind_eq_bind,
          Option.bind_some]
        have rest : (str.drop length).length + 2 ≤ more + 1 := by
          rw [List.length_drop]
          omega
        have joined := List.take_append_drop length str
        by_cases full : length = self.writer.maxSize
        · rw [if_pos (by exact full)]
          obtain ⟨result, later, appends⟩ := @inductionHypothesis
            (callHandler { self with writer := self.writer.push _ fits })
            (str.drop length) positive (fun _ => rfl) rest
          have whole := (part.trans (appends_callHandler _)).trans appends
          rw [List.append_nil, joined] at whole
          exact ⟨result, later, whole⟩
        · rw [if_neg (by exact full)]
          have last : str.drop length = [] := by
            apply List.drop_of_length_le
            split at place <;> omega
          obtain ⟨result, later, appends⟩ := @inductionHypothesis
            { self with writer := self.writer.push _ fits }
            (str.drop length) positive (fun more => absurd last more) rest
          have whole := part.trans appends
          rw [joined] at whole
          exact ⟨result, later, whole⟩

/-- The handler is called, then the rest is appended. -/
theorem handleFull_appends {fuel : Nat} {self : HandlingWriter}
    {str : List UInt8} (positive : 1 ≤ self.writer.maxSize)
    (enough : str.length + 3 ≤ fuel) :
    ∃ result, handleFull fuel self str = some result ∧
      self.Appends str result := by
  obtain ⟨fuel, rfl⟩ : ∃ more, fuel = more + 2 := by
    refine ⟨fuel - 2, ?_⟩
    omega
  have handler := appends_callHandler self
  rw [handleFull]
  by_cases le : str.length ≤ self.callHandler.writer.maxSize
  · have fits := canAppend_of_empty rfl le
    rw [if_pos le, append_of_fits fuel _ fits]
    exact ⟨_, rfl, handler.trans (appends_push _ fits)⟩
  · rw [if_neg le]
    obtain ⟨result, done, appends⟩ := @appendParts_appends (fuel + 1)
      self.callHandler str positive (fun _ => rfl) (by omega)
    exact ⟨result, done, handler.trans appends⟩

/-- `append(StringView)` returns, and nothing is lost. -/
theorem append_appends {fuel : Nat} {self : HandlingWriter}
    {str : List UInt8} (positive : 1 ≤ self.writer.maxSize)
    (enough : str.length + 4 ≤ fuel) :
    ∃ result, append fuel self str = some result ∧
      self.Appends str result := by
  obtain ⟨fuel, rfl⟩ : ∃ more, fuel = more + 2 := by
    refine ⟨fuel - 2, ?_⟩
    omega
  by_cases fits : self.writer.canAppend str.length
  · rw [append_of_fits _ self fits]
    exact ⟨_, rfl, self.appends_push fits⟩
  · have room := self.writer.canAppend_take str
    rw [append, dif_neg fits]
    dsimp only
    rw [append_of_fits fuel self room, Option.bind_eq_bind,
      Option.bind_some]
    obtain ⟨result, done, appends⟩ := @handleFull_appends (fuel + 1)
      { self with writer := self.writer.push _ room }
      (str.drop (self.writer.maxSize - self.writer.text.length)) positive
      (by rw [List.length_drop]; omega)
    have whole := (self.appends_push room).trans appends
    rw [List.take_append_drop] at whole
    exact ⟨result, done, whole⟩

/-- `append(char)` returns, and nothing is lost. -/
theorem appendChar_appends {self : HandlingWriter}
    (positive : 1 ≤ self.writer.maxSize) (ch : UInt8) :
    ∃ result, appendChar 2 self ch = some result ∧
      self.Appends [ch] result := by
  rw [appendChar]
  by_cases fits : self.writer.canAppend 1
  · rw [dif_pos fits]
    exact ⟨_, rfl, @appends_push self [ch] fits⟩
  · have handler := appends_callHandler self
    have room : self.callHandler.writer.canAppend 1 :=
      canAppend_of_empty rfl positive
    rw [dif_neg fits]
    dsimp only
    rw [if_pos (show 1 ≤ self.callHandler.writer.maxSize from positive),
      appendChar, dif_pos room]
    exact ⟨_, rfl, handler.trans (@appends_push _ [ch] room)⟩


/-! ## Runs -/

/-- An integer fits in what is left of the buffer; characters and strings need
not. -/
def Fits (self : HandlingWriter) : WriterCall → Prop
  | .char _ => True
  | .string _ => True
  | .integer number => self.writer.canAppend (formatNeedSpace number)

instance (self : HandlingWriter) : DecidablePred self.Fits
  | .char _ => inferInstanceAs (Decidable True)
  | .string _ => inferInstanceAs (Decidable True)
  | .integer _ => inferInstanceAs (Decidable (self.writer.canAppend _))

theorem reaches_nil (self : HandlingWriter) : self.Reaches [] self :=
  ⟨0, rfl⟩

theorem reaches_singleton {fuel : Nat} {self next : HandlingWriter}
    {first : WriterCall} (now : call fuel self first = some next) :
    self.Reaches [first] next :=
  ⟨fuel, Option.bind_eq_some_iff.mpr ⟨next, now, rfl⟩⟩

/-- A call whose integer fits. -/
theorem call_of_fits {self : HandlingWriter} {first : WriterCall}
    (positive : 1 ≤ self.writer.maxSize) (fits : self.Fits first) :
    ∃ next, self.Reaches [first] next ∧ self.Appends first.text next := by
  cases first with
  | char ch =>
      obtain ⟨next, now, appends⟩ := appendChar_appends positive ch
      exact ⟨next, @reaches_singleton 2 _ _ (.char ch) now, appends⟩
  | string str =>
      obtain ⟨next, now, appends⟩ :=
        append_appends positive (Nat.le_refl (str.length + 4))
      exact ⟨next,
        @reaches_singleton (str.length + 4) _ _ (.string str) now, appends⟩
  | integer number =>
      have room : self.writer.canAppend (decimal number.value).length := by
        rw [length_decimal]
        exact fits
      refine ⟨self.insertInteger number, @reaches_singleton 0 _ _ _ rfl, ?_⟩
      have appends := self.appends_push room
      have inserted : self.insertInteger number =
          { self with writer := self.writer.push _ room } := by
        unfold insertInteger TextWriter.insertInteger
        simp only [dif_pos (show self.writer.canAppend _ from fits),
          formatInteger_eq]
      rw [inserted]
      exact appends

/-- A call whose integer does not fit does nothing. -/
theorem call_of_not_fits {self : HandlingWriter} {first : WriterCall}
    (full : ¬ self.Fits first) : self.Reaches [first] self := by
  cases first with
  | char ch => exact absurd trivial full
  | string str => exact absurd trivial full
  | integer number =>
      apply @reaches_singleton 0
      rw [call, insertInteger, TextWriter.insertInteger,
        dif_neg (show ¬ self.writer.canAppend _ from full)]

/-- The texts of calls one after another. -/
def texts (calls : List WriterCall) : List UInt8 :=
  calls.flatMap WriterCall.text

/-- Every run returns; text may be lost but not added. -/
theorem exists_reaches {self : HandlingWriter}
    (positive : 1 ≤ self.writer.maxSize) (calls : List WriterCall) :
    ∃ result, self.Reaches calls result ∧
      result.writer.maxSize = self.writer.maxSize ∧
      result.output.length ≤ self.output.length + (texts calls).length := by
  induction calls generalizing self with
  | nil => exact ⟨self, self.reaches_nil, rfl, Nat.le_refl _⟩
  | cons first calls inductionHypothesis =>
      rw [texts, List.flatMap_cons, List.length_append]
      by_cases fits : self.Fits first
      · obtain ⟨next, now, appends⟩ := call_of_fits positive fits
        obtain ⟨result, later, same, le⟩ := inductionHypothesis
          (appends.maxSize.symm ▸ positive)
        refine ⟨result, now.append later, same.trans appends.maxSize, ?_⟩
        rw [appends.output, List.length_append] at le
        unfold texts at le
        omega
      · obtain ⟨result, later, same, le⟩ := inductionHypothesis positive
        refine ⟨result, (call_of_not_fits fits).append later, same, ?_⟩
        unfold texts at le
        omega

/-- The calls return, what the handler got and the buffer are the texts of the
calls, and the buffer is not longer than it may be. -/
def KeepsText (self : HandlingWriter) (calls : List WriterCall) : Prop :=
  ∃ result, self.Reaches calls result ∧
    result.output = self.output ++ texts calls ∧
    result.writer.text.length ≤ self.writer.maxSize

/-- Each integer fits when it is inserted. -/
def EachFits (self : HandlingWriter) (calls : List WriterCall) : Prop :=
  ∀ before first after, calls = before ++ first :: after →
    ∀ reached, self.Reaches before reached → reached.Fits first

/-- Nothing is lost while integers fit. -/
theorem keepsText_of_eachFits {self : HandlingWriter}
    (positive : 1 ≤ self.writer.maxSize) {calls : List WriterCall}
    (fits : self.EachFits calls) : self.KeepsText calls := by
  induction calls generalizing self with
  | nil =>
      exact ⟨self, self.reaches_nil, (List.append_nil _).symm,
        self.length_le⟩
  | cons first calls inductionHypothesis =>
      obtain ⟨next, now, appends⟩ := call_of_fits positive
        (fits [] first calls rfl self self.reaches_nil)
      have rest : next.EachFits calls := by
        rintro before call after rfl reached later
        exact fits (first :: before) call after rfl reached (now.append later)
      obtain ⟨result, later, output, length⟩ := inductionHypothesis
        (appends.maxSize.symm ▸ positive) rest
      refine ⟨result, now.append later, ?_, appends.maxSize ▸ length⟩
      rw [output, appends.output, List.append_assoc, texts, texts,
        List.flatMap_cons]

/-- What one integer loses is never made up for. -/
theorem eachFits_of_keepsText {self : HandlingWriter}
    (positive : 1 ≤ self.writer.maxSize) {calls : List WriterCall}
    (keeps : self.KeepsText calls) : self.EachFits calls := by
  rintro before first after rfl reached reaches
  by_contra lost
  obtain ⟨result, done, output, -⟩ := keeps
  obtain ⟨middle, first', same, le⟩ := exists_reaches positive before
  cases first'.unique reaches
  obtain ⟨last, later, -, least⟩ := exists_reaches
    (same.symm ▸ positive) after
  have whole := reaches.append ((call_of_not_fits lost).append later)
  cases whole.unique done
  have nonempty : 1 ≤ first.text.length := by
    cases first with
    | char ch => exact absurd trivial lost
    | string str => exact absurd trivial lost
    | integer number =>
        have length := length_decimal number
        have room := reached.length_le
        rw [Fits, TextWriter.canAppend] at lost
        rw [WriterCall.text]
        omega
  have total := congrArg List.length output
  rw [texts, List.flatMap_append, List.flatMap_cons] at total
  simp only [List.length_append] at total
  unfold texts at le least
  omega

/-- Exactly the runs in which each integer fits lose nothing. -/
theorem keepsText_iff_eachFits (self : HandlingWriter)
    (two : 2 ≤ self.writer.capacity) (calls : List WriterCall) :
    self.KeepsText calls ↔ self.EachFits calls := by
  have positive : 1 ≤ self.writer.maxSize := Nat.le_sub_one_of_lt two
  constructor
  · exact eachFits_of_keepsText positive
  · exact keepsText_of_eachFits positive

/-- A new writer with a buffer of three characters. -/
def small : HandlingWriter := ⟨.init 2, []⟩

theorem inRange_ten : int64.InRange 10 := by
  decide

theorem inRange_one : int64.InRange 1 := by
  decide

/-- The numbers ten and one: there is no room for the second one. -/
def ten : Integer := ⟨int64, 10, inRange_ten⟩

@[inherit_doc ten]
def one : Integer := ⟨int64, 1, inRange_one⟩

theorem small_keepsText_iff :
    small.KeepsText [.string [0x61], .integer one] ↔
      small.EachFits [.string [0x61], .integer one] :=
  keepsText_iff_eachFits small (by decide) [.string [0x61], .integer one]

theorem not_keepsText_always :
    ¬ small.KeepsText [.integer ten, .integer one] := by
  rintro ⟨result, ⟨fuel, done⟩, output, -⟩
  have last : (small.insertInteger ten).insertInteger one = result :=
    Option.some.inj done
  have lost : ((small.insertInteger ten).insertInteger one).output ≠
      small.output ++ texts [.integer ten, .integer one] := by
    decide +kernel
  rw [last] at lost
  exact lost output

end HandlingWriter

end Lights
end Spaceless
