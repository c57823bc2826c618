import Mathlib.Tactic.Common

/-!
# Texts with separators

A text falls into pieces at its separators, and its words are the pieces that
are not empty.  To halve the runs of separators, or to drop one at either end,
keeps the words; it makes the pieces of the text its words only where no three
separators were adjacent.
-/

namespace Spaceless
namespace Logic
namespace Separator

variable {α : Type} [DecidableEq α]

/-- Replace pairs of separators by one, from left to right in one pass. -/
def squeeze (separator : α) : List α → List α
  | [] => []
  | [last] => [last]
  | first :: second :: rest =>
      if first = separator ∧ second = separator then
        separator :: squeeze separator rest
      else first :: squeeze separator (second :: rest)

/-- Drop one separator at either end. -/
def strip (separator : α) (text : List α) : List α :=
  let relative :=
    if text.head? = some separator then text.drop 1 else text
  if relative.getLast? = some separator then relative.dropLast else relative

/-- The pieces that are not empty. -/
def words (separator : α) (text : List α) : List (List α) :=
  (text.splitOn separator).filter fun piece => piece ≠ []

variable {separator : α} {text rest : List α}

/-! ## Adjacent separators -/

omit [DecidableEq α] in
theorem pair_cons_iff {first : α} :
    [separator, separator] <:+: first :: rest ↔
      first = separator ∧ rest.head? = some separator ∨
        [separator, separator] <:+: rest := by
  rw [List.infix_cons_iff, List.cons_prefix_cons, @eq_comm _ separator]
  cases rest with
  | nil => simp
  | cons second rest =>
      simp [List.cons_prefix_cons, @eq_comm _ separator second]

omit [DecidableEq α] in
theorem pair_concat_iff {last : α} :
    [separator, separator] <:+: rest ++ [last] ↔
      last = separator ∧ rest.getLast? = some separator ∨
        [separator, separator] <:+: rest := by
  have turn (text : List α) : [separator, separator] <:+: text ↔
      [separator, separator] <:+: text.reverse :=
    (@List.reverse_infix _ [separator, separator] text).symm
  rw [turn, List.reverse_concat, pair_cons_iff, List.head?_reverse, ← turn]

omit [DecidableEq α] in
theorem triple_cons_iff {first : α} :
    [separator, separator, separator] <:+: first :: rest ↔
      first = separator ∧ [separator, separator] <+: rest ∨
        [separator, separator, separator] <:+: rest := by
  rw [List.infix_cons_iff, List.cons_prefix_cons, @eq_comm _ separator]

@[simp] theorem head?_squeeze (text : List α) :
    (squeeze separator text).head? = text.head? := by
  fun_cases squeeze separator text with
  | case1 => rfl
  | case2 => rfl
  | case3 first second rest both => simp [both]
  | case4 first second rest other => rfl

/-- Two separators remain adjacent exactly where three were. -/
theorem pair_squeeze_iff :
    [separator, separator] <:+: squeeze separator text ↔
      [separator, separator, separator] <:+: text := by
  fun_induction squeeze separator text with
  | case1 => simp
  | case2 last => simp [List.infix_cons_iff]
  | case3 first second rest both inductionHypothesis =>
      obtain ⟨rfl, rfl⟩ := both
      rw [pair_cons_iff, inductionHypothesis, head?_squeeze, triple_cons_iff,
        triple_cons_iff]
      cases rest with
      | nil => simp
      | cons third rest =>
          simp only [List.cons_prefix_cons, List.head?_cons,
            Option.some.injEq, true_and, List.nil_prefix, and_true]
          constructor
          · rintro (same | later)
            · exact Or.inl same.symm
            · exact Or.inr (Or.inr later)
          · rintro (same | both | later)
            · exact Or.inl same.symm
            · exact Or.inl both.1.symm
            · exact Or.inr later
  | case4 first second rest other inductionHypothesis =>
      rw [pair_cons_iff, inductionHypothesis, head?_squeeze]
      refine Iff.trans (or_congr_left ⟨fun both => ?_, fun both => ?_⟩)
        triple_cons_iff.symm
      · exact absurd ⟨both.1, Option.some.inj both.2⟩ other
      · exact absurd ⟨both.1, ((List.cons_prefix_cons.mp both.2).1).symm⟩
          other

theorem length_squeeze_le (separator : α) (text : List α) :
    (squeeze separator text).length ≤ text.length := by
  fun_induction squeeze separator text with
  | case1 => exact Nat.le_refl _
  | case2 last => exact Nat.le_refl _
  | case3 first second rest both inductionHypothesis =>
      simp only [List.length_cons]
      omega
  | case4 first second rest other inductionHypothesis =>
      exact Nat.succ_le_succ inductionHypothesis

/-- A text without adjacent separators is left as it is. -/
theorem squeeze_eq_self (apart : ¬[separator, separator] <:+: text) :
    squeeze separator text = text := by
  fun_induction squeeze separator text with
  | case1 => rfl
  | case2 last => rfl
  | case3 first second rest both inductionHypothesis =>
      obtain ⟨rfl, rfl⟩ := both
      exact absurd ⟨[], rest, rfl⟩ apart
  | case4 first second rest other inductionHypothesis =>
      rw [inductionHypothesis]
      exact fun pair => apart (pair_cons_iff.mpr (Or.inr pair))

/-- No other letter is added. -/
theorem mem_of_mem_squeeze {letter : α}
    (member : letter ∈ squeeze separator text) : letter ∈ text := by
  fun_induction squeeze separator text with
  | case1 => exact member
  | case2 last => exact member
  | case3 first second rest both inductionHypothesis =>
      obtain ⟨rfl, rfl⟩ := both
      rcases List.mem_cons.mp member with rfl | later
      · exact List.mem_cons_self
      · exact List.mem_cons_of_mem _
          (List.mem_cons_of_mem _ (inductionHypothesis later))
  | case4 first second rest other inductionHypothesis =>
      rcases List.mem_cons.mp member with rfl | later
      · exact List.mem_cons_self
      · exact List.mem_cons_of_mem _ (inductionHypothesis later)

/-! ## Pieces -/

theorem splitOn_cons_self (rest : List α) :
    (separator :: rest).splitOn separator =
      [] :: rest.splitOn separator := by
  rw [List.splitOn_cons_eq_if_modifyHead, if_pos (beq_self_eq_true _)]

theorem splitOn_cons_of_ne {first : α} (other : first ≠ separator)
    (rest : List α) :
    (first :: rest).splitOn separator =
      (rest.splitOn separator).modifyHead (List.cons first) := by
  rw [List.splitOn_cons_eq_if_modifyHead, if_neg (by simpa using other)]

theorem head?_splitOn_eq_nil :
    (text.splitOn separator).head? = some [] ↔
      text = [] ∨ text.head? = some separator := by
  cases text with
  | nil => simp
  | cons first rest =>
      by_cases same : first = separator
      · subst same
        simp [splitOn_cons_self]
      · simp [splitOn_cons_of_ne same, List.head?_modifyHead, same]

theorem nil_mem_tail_splitOn :
    [] ∈ (text.splitOn separator).tail ↔
      [separator, separator] <:+: text ∨
        text.getLast? = some separator := by
  induction text with
  | nil => simp
  | cons first rest inductionHypothesis =>
      have split : [] ∈ rest.splitOn separator ↔
          (rest.splitOn separator).head? = some [] ∨
            [] ∈ (rest.splitOn separator).tail := by
        cases rest.splitOn separator with
        | nil => simp
        | cons piece pieces => simp [eq_comm]
      rw [pair_cons_iff]
      by_cases same : first = separator
      · subst same
        rw [splitOn_cons_self, List.tail_cons, split, head?_splitOn_eq_nil,
          inductionHypothesis]
        cases rest with
        | nil => simp
        | cons second rest =>
            simp only [List.getLast?_cons_cons, reduceCtorEq, false_or,
              true_and]
            exact or_assoc.symm
      · rw [splitOn_cons_of_ne same, List.tail_modifyHead,
          inductionHypothesis]
        cases rest with
        | nil => simp [same]
        | cons second rest => simp [same]

/-- A piece is empty at either end of a text and between two separators. -/
theorem nil_mem_splitOn_iff :
    [] ∈ text.splitOn separator ↔
      text = [] ∨ text.head? = some separator ∨
        text.getLast? = some separator ∨
          [separator, separator] <:+: text := by
  have split : [] ∈ text.splitOn separator ↔
      (text.splitOn separator).head? = some [] ∨
        [] ∈ (text.splitOn separator).tail := by
    cases text.splitOn separator with
    | nil => simp
    | cons piece pieces => simp [eq_comm]
  rw [split, head?_splitOn_eq_nil, nil_mem_tail_splitOn, or_assoc]
  exact or_congr_right (or_congr_right or_comm)

/-- A text begins as its first piece. -/
theorem head?_of_head?_splitOn {first : List α}
    (begins : (text.splitOn separator).head? = some first)
    (full : first ≠ []) : text.head? = first.head? := by
  cases text with
  | nil => exact absurd (Option.some.inj begins).symm full
  | cons letter rest =>
      by_cases same : letter = separator
      · subst same
        rw [splitOn_cons_self] at begins
        exact absurd (Option.some.inj begins).symm full
      · rw [splitOn_cons_of_ne same, List.head?_modifyHead] at begins
        obtain ⟨piece, -, rfl⟩ := Option.map_eq_some_iff.mp begins
        rfl

/-- A text ends as its last piece. -/
theorem getLast?_of_getLast?_splitOn {last : List α}
    (ends : (text.splitOn separator).getLast? = some last)
    (full : last ≠ []) : text.getLast? = last.getLast? := by
  induction text with
  | nil => exact absurd (Option.some.inj ends).symm full
  | cons letter rest inductionHypothesis =>
      have further (inRest : (rest.splitOn separator).getLast? = some last) :
          (letter :: rest).getLast? = last.getLast? := by
        rw [← inductionHypothesis inRest]
        cases rest with
        | nil => exact absurd (Option.some.inj inRest).symm full
        | cons second rest => rw [List.getLast?_cons_cons]
      cases pieces : rest.splitOn separator with
      | nil => exact absurd pieces (List.splitOn_ne_nil _ _)
      | cons piece others =>
          rw [pieces] at further
          by_cases same : letter = separator
          · subst same
            rw [splitOn_cons_self, pieces, List.getLast?_cons_cons] at ends
            exact further ends
          · rw [splitOn_cons_of_ne same, pieces, List.modifyHead_cons] at ends
            cases others with
            | nil =>
                have whole : [separator].intercalate [piece] = rest := by
                  rw [← pieces, List.intercalate_splitOn]
                rw [List.intercalate_singleton] at whole
                rw [← whole, ← Option.some.inj ends]
                rfl
            | cons second others =>
                rw [List.getLast?_cons_cons] at ends further
                exact further ends

/-! ## Words -/

@[simp] theorem words_nil : words separator [] = [] := by
  simp [words]

theorem words_append_cons (before after : List α) :
    words separator (before ++ separator :: after) =
      words separator before ++ words separator after := by
  unfold words
  rw [List.splitOn_append_cons_self, List.filter_append]

/-- Where no piece is empty the words are the pieces. -/
theorem words_of_nil_not_mem (tight : [] ∉ text.splitOn separator) :
    words separator text = text.splitOn separator := by
  apply List.filter_eq_self.mpr
  intro piece member
  have full : piece ≠ [] := fun empty => tight (empty ▸ member)
  simpa using full

theorem words_squeeze (text : List α) :
    words separator (squeeze separator text) = words separator text := by
  have filtered {first second : List (List α)}
      (heads : first.head? = second.head?)
      (tails : first.tail.filter (· ≠ []) = second.tail.filter (· ≠ [])) :
      first.filter (· ≠ []) = second.filter (· ≠ []) := by
    cases first <;> cases second <;> simp_all [List.filter_cons]
  suffices pieces :
      ((squeeze separator text).splitOn separator).head? =
          (text.splitOn separator).head? ∧
        ((squeeze separator text).splitOn separator).tail.filter (· ≠ []) =
          (text.splitOn separator).tail.filter (· ≠ []) from
    filtered pieces.1 pieces.2
  fun_induction squeeze separator text with
  | case1 => exact ⟨rfl, rfl⟩
  | case2 last => exact ⟨rfl, rfl⟩
  | case3 first second rest both inductionHypothesis =>
      obtain ⟨rfl, rfl⟩ := both
      have same := filtered inductionHypothesis.1 inductionHypothesis.2
      rw [splitOn_cons_self, splitOn_cons_self, splitOn_cons_self]
      exact ⟨rfl, same⟩
  | case4 first second rest other inductionHypothesis =>
      by_cases same : first = separator
      · subst same
        rw [splitOn_cons_self, splitOn_cons_self]
        exact ⟨rfl, filtered inductionHypothesis.1 inductionHypothesis.2⟩
      · rw [splitOn_cons_of_ne same, splitOn_cons_of_ne same,
          List.head?_modifyHead, List.head?_modifyHead,
          List.tail_modifyHead, List.tail_modifyHead]
        exact ⟨congrArg _ inductionHypothesis.1, inductionHypothesis.2⟩

/-! ## Stripped texts -/

/-- What is stripped is one separator or nothing, and where it is nothing no
separator is at that end. -/
theorem strip_cases (separator : α) (text : List α) :
    (text = strip separator text ∧ text.head? ≠ some separator ∧
        text.getLast? ≠ some separator) ∨
      (text = separator :: strip separator text ∧
        (strip separator text).getLast? ≠ some separator) ∨
      (text = strip separator text ++ [separator] ∧
        text.head? ≠ some separator) ∨
      text = separator :: (strip separator text ++ [separator]) := by
  have ending (tail : List α) (last : tail.getLast? = some separator) :
      tail = tail.dropLast ++ [separator] := by
    obtain ⟨before, rfl⟩ := List.getLast?_eq_some_iff.mp last
    rw [List.dropLast_concat]
  unfold strip
  split
  · rename_i leading
    cases text with
    | nil => cases leading
    | cons first rest =>
        obtain rfl := Option.some.inj leading
        simp only [List.drop_one, List.tail_cons, List.cons.injEq, true_and]
        split
        · rename_i trailing
          exact Or.inr (Or.inr (Or.inr (ending rest trailing)))
        · rename_i trailing
          exact Or.inr (Or.inl ⟨rfl, trailing⟩)
  · rename_i leading
    dsimp only
    split
    · rename_i trailing
      exact Or.inr (Or.inr (Or.inl ⟨ending text trailing, leading⟩))
    · rename_i trailing
      exact Or.inl ⟨rfl, leading, trailing⟩

theorem strip_eq_self (first : text.head? ≠ some separator)
    (last : text.getLast? ≠ some separator) :
    strip separator text = text := by
  unfold strip
  rw [if_neg first]
  exact if_neg last

theorem strip_sublist (separator : α) (text : List α) :
    (strip separator text).Sublist text := by
  unfold strip
  split
  · dsimp only
    split
    · exact (List.dropLast_sublist _).trans (List.drop_sublist _ _)
    · exact List.drop_sublist _ _
  · dsimp only
    split
    · exact List.dropLast_sublist _
    · exact List.Sublist.refl _

theorem words_strip (text : List α) :
    words separator (strip separator text) = words separator text := by
  have concat (before : List α) :
      words separator (before ++ [separator]) = words separator before := by
    rw [words_append_cons, words_nil, List.append_nil]
  have cons (after : List α) :
      words separator (separator :: after) = words separator after :=
    words_append_cons [] after
  obtain ⟨same, -⟩ | ⟨same, -⟩ | ⟨same, -⟩ | same :=
    strip_cases separator text
  · rw [← same]
  · conv_rhs => rw [same, cons]
  · conv_rhs => rw [same, concat]
  · conv_rhs => rw [same, cons, concat]

/-- A stripped text with a word has an empty piece exactly where two
separators were adjacent. -/
theorem nil_mem_splitOn_strip (worded : words separator text ≠ []) :
    [] ∈ (strip separator text).splitOn separator ↔
      [separator, separator] <:+: text := by
  have stripped : words separator (strip separator text) ≠ [] := by
    rwa [words_strip]
  have full : strip separator text ≠ [] := by
    intro empty
    rw [empty] at stripped
    exact stripped words_nil
  have leads : (strip separator text ++ [separator]).head? =
      (strip separator text).head? := by
    cases shown : strip separator text with
    | nil => exact absurd shown full
    | cons first rest => rfl
  rw [nil_mem_splitOn_iff, or_iff_right full]
  obtain ⟨same, first, last⟩ | ⟨same, last⟩ | ⟨same, first⟩ | same :=
    strip_cases separator text
  · rw [← same, or_iff_right first, or_iff_right last]
  · conv_rhs => rw [same, pair_cons_iff]
    rw [or_iff_right last, and_iff_right rfl]
  · conv_rhs => rw [same, pair_concat_iff]
    have leading : (strip separator text).head? ≠ some separator := by
      rwa [same, leads] at first
    rw [or_iff_right leading, and_iff_right rfl]
  · conv_rhs => rw [same, pair_cons_iff, pair_concat_iff]
    rw [and_iff_right rfl, and_iff_right rfl, leads]

end Separator
end Logic
end Spaceless
