import Mathlib.Tactic.Common

/-!
# Ordered tables

A table is a finite map whose entries are traversed in key order, as in an
ordered associative container: `insertIfNew` keeps an entry that is already
there, `insert` overwrites it.  Lookup lemmas are stated with plain equality
of keys, and the first entry that satisfies a test is related to lookups.
-/

namespace Spaceless
namespace Logic

/-- A finite map traversed in the order of its keys. -/
abbrev Table (κ ν : Type) [Ord κ] := Std.ExtTreeMap κ ν compare

namespace Table

variable {κ ν : Type} [Ord κ] [Std.TransOrd κ] [Std.LawfulEqOrd κ]

@[simp] theorem lookup_insert_self (table : Table κ ν) (key : κ) (value : ν) :
    (table.insert key value)[key]? = some value := by
  simp

theorem lookup_insert [DecidableEq κ]
    (table : Table κ ν) (key other : κ) (value : ν) :
    (table.insert key value)[other]? =
      if key = other then some value else table[other]? := by
  simp [Std.ExtTreeMap.getElem?_insert]

theorem lookup_insert_of_ne
    (table : Table κ ν) {key other : κ} (value : ν)
    (different : key ≠ other) :
    (table.insert key value)[other]? = table[other]? := by
  simp [Std.ExtTreeMap.getElem?_insert, different]

@[simp] theorem lookup_erase_self (table : Table κ ν) (key : κ) :
    (table.erase key)[key]? = none := by
  simp

theorem lookup_erase [DecidableEq κ]
    (table : Table κ ν) (key other : κ) :
    (table.erase key)[other]? =
      if key = other then none else table[other]? := by
  simp [Std.ExtTreeMap.getElem?_erase]

theorem lookup_erase_of_ne
    (table : Table κ ν) {key other : κ}
    (different : key ≠ other) :
    (table.erase key)[other]? = table[other]? := by
  simp [Std.ExtTreeMap.getElem?_erase, different]

/-- An entry that survives an erasure was there before. -/
theorem lookup_of_lookup_erase
    {table : Table κ ν} {key other : κ} {value : ν}
    (found : (table.erase key)[other]? = some value) :
    table[other]? = some value := by
  by_cases same : key = other
  · subst same
    simp at found
  · rwa [lookup_erase_of_ne table same] at found

/-- Erasing a key that is not bound changes nothing. -/
theorem erase_of_absent
    {table : Table κ ν} {key : κ} (absent : table[key]? = none) :
    table.erase key = table := by
  apply Std.ExtTreeMap.ext_getElem?
  intro other
  by_cases same : key = other
  · subst same
    rw [lookup_erase_self, absent]
  · exact lookup_erase_of_ne table same

/-- Inserting the entry that is there changes nothing. -/
theorem insert_of_bound
    {table : Table κ ν} {key : κ} {value : ν}
    (bound : table[key]? = some value) :
    table.insert key value = table := by
  apply Std.ExtTreeMap.ext_getElem?
  intro other
  by_cases same : key = other
  · subst same
    rw [lookup_insert_self, bound]
  · exact lookup_insert_of_ne table value same

theorem insert_eq_self_iff
    {table : Table κ ν} {key : κ} {value : ν} :
    table.insert key value = table ↔ table[key]? = some value := by
  constructor
  · intro same
    rw [← same, lookup_insert_self]
  · exact insert_of_bound

/-- A key that is already bound keeps its entry. -/
theorem insertIfNew_of_bound
    {table : Table κ ν} {key : κ} {old : ν} (value : ν)
    (bound : table[key]? = some old) :
    table.insertIfNew key value = table := by
  have present : key ∈ table := by
    simp [Std.ExtTreeMap.mem_iff_isSome_getElem?, bound]
  apply Std.ExtTreeMap.ext_getElem?
  intro other
  simp [Std.ExtTreeMap.getElem?_insertIfNew, present]

/-- A key that is not bound receives the new entry. -/
theorem insertIfNew_of_fresh
    {table : Table κ ν} {key : κ} (value : ν)
    (fresh : table[key]? = none) :
    table.insertIfNew key value = table.insert key value := by
  have absent : key ∉ table := by
    simp [Std.ExtTreeMap.mem_iff_isSome_getElem?, fresh]
  apply Std.ExtTreeMap.ext_getElem?
  intro other
  rw [Std.ExtTreeMap.getElem?_insertIfNew, Std.ExtTreeMap.getElem?_insert]
  exact if_congr (and_iff_left absent) rfl rfl

/-- An entry after a replacement is the new one or was there before. -/
theorem lookup_of_lookup_insert
    {table : Table κ ν} {key other : κ} {value found : ν}
    (bound : (table.insert key value)[other]? = some found) :
    key = other ∧ value = found ∨ table[other]? = some found := by
  by_cases same : key = other
  · subst same
    rw [lookup_insert_self] at bound
    exact Or.inl ⟨rfl, Option.some.inj bound⟩
  · rw [lookup_insert_of_ne _ _ same] at bound
    exact Or.inr bound

/-- An entry after an insertion was there before, or is the new one. -/
theorem lookup_of_lookup_insertIfNew
    {table : Table κ ν} {key other : κ} {value found : ν}
    (bound : (table.insertIfNew key value)[other]? = some found) :
    table[other]? = some found ∨ key = other ∧ value = found := by
  cases old : table[key]? with
  | some entry =>
      rw [insertIfNew_of_bound value old] at bound
      exact Or.inl bound
  | none =>
      rw [insertIfNew_of_fresh value old] at bound
      by_cases same : key = other
      · subst same
        rw [lookup_insert_self] at bound
        exact Or.inr ⟨rfl, Option.some.inj bound⟩
      · rw [lookup_insert_of_ne _ _ same] at bound
        exact Or.inl bound

/-! ## The first entry that satisfies a test -/

/-- The first entry in key order whose value satisfies the test. -/
def findIf (table : Table κ ν) (test : ν → Bool) : Option (κ × ν) :=
  table.toList.find? fun entry => test entry.2

theorem findIf_eq_some
    {table : Table κ ν} {test : ν → Bool} {key : κ} {value : ν}
    (found : table.findIf test = some (key, value)) :
    table[key]? = some value ∧ test value = true := by
  constructor
  · exact Std.ExtTreeMap.mem_toList_iff_getElem?_eq_some.mp
      (List.mem_of_find?_eq_some found)
  · simpa using List.find?_some found

theorem findIf_eq_none
    {table : Table κ ν} {test : ν → Bool} :
    table.findIf test = none ↔
      ∀ (key : κ) (value : ν),
        table[key]? = some value → test value = false := by
  simp only [findIf, List.find?_eq_none, Prod.forall, Bool.not_eq_true]
  constructor
  · intro absent key value bound
    exact absent key value
      (Std.ExtTreeMap.mem_toList_iff_getElem?_eq_some.mpr bound)
  · intro absent key value present
    exact absent key value
      (Std.ExtTreeMap.mem_toList_iff_getElem?_eq_some.mp present)

/-! ## Counting entries -/

/-- The number of entries whose values satisfy the test. -/
def count (table : Table κ ν) (test : ν → Bool) : Nat :=
  (table.filter fun _ value => test value).size

@[simp] theorem count_empty (test : ν → Bool) :
    count (∅ : Table κ ν) test = 0 := by
  have empty : (∅ : Table κ ν).filter (fun _ value => test value) = ∅ := by
    apply Std.ExtTreeMap.ext_getElem?
    intro key
    rw [Std.ExtTreeMap.getElem?_filter', Std.ExtTreeMap.getElem?_empty]
    exact Option.filter_none _
  rw [count, empty, Std.ExtTreeMap.size_empty]

omit [Std.LawfulEqOrd κ] in
theorem size_erase_add (table : Table κ ν) (key : κ) :
    table.size = (table.erase key).size + if key ∈ table then 1 else 0 := by
  rw [Std.ExtTreeMap.size_erase]
  by_cases present : key ∈ table
  · have nonempty : table.size ≠ 0 := by
      intro empty
      rw [Std.ExtTreeMap.eq_empty_iff_size_eq_zero.mpr empty] at present
      exact Std.ExtTreeMap.not_mem_empty present
    rw [if_pos present, if_pos (Std.ExtTreeMap.mem_iff_contains.mp present)]
    omega
  · have absent : ¬table.contains key = true :=
      fun contained => present (Std.ExtTreeMap.mem_iff_contains.mpr contained)
    rw [if_neg present, if_neg absent, Nat.add_zero]

/-- Tables that agree everywhere but at one key differ in their counts by
what they hold there. -/
theorem count_of_agree {first second : Table κ ν} (key : κ)
    (agree : ∀ other, key ≠ other → first[other]? = second[other]?)
    (test : ν → Bool) :
    first.count test + (if second[key]?.any test then 1 else 0) =
      second.count test + (if first[key]?.any test then 1 else 0) := by
  have same : (first.filter fun _ value => test value).erase key =
      (second.filter fun _ value => test value).erase key := by
    apply Std.ExtTreeMap.ext_getElem?
    intro other
    by_cases own : key = other
    · subst own
      rw [lookup_erase_self, lookup_erase_self]
    · rw [lookup_erase_of_ne _ own, lookup_erase_of_ne _ own,
        Std.ExtTreeMap.getElem?_filter', Std.ExtTreeMap.getElem?_filter',
        agree other own]
  have held (table : Table κ ν) :
      key ∈ (table.filter fun _ value => test value) ↔
        table[key]?.any test = true := by
    rw [Std.ExtTreeMap.mem_iff_isSome_getElem?,
      Std.ExtTreeMap.getElem?_filter', Option.isSome_filter]
  unfold count
  rw [size_erase_add _ key, size_erase_add (second.filter _) key, same]
  simp only [held]
  omega

/-- A new entry counts if it satisfies the test. -/
theorem count_insert_of_absent {table : Table κ ν} {key : κ}
    (absent : table[key]? = none) (value : ν) (test : ν → Bool) :
    count (table.insert key value) test =
      table.count test + if test value then 1 else 0 := by
  have counted := count_of_agree key
    (fun _ different => lookup_insert_of_ne table value different) test
  rw [lookup_insert_self, absent] at counted
  simpa using counted

/-- A replaced entry counts as before when the test does not see the
change. -/
theorem count_insert_of_same {table : Table κ ν} {key : κ} {old value : ν}
    (bound : table[key]? = some old) {test : ν → Bool}
    (same : test value = test old) :
    count (table.insert key value) test = table.count test := by
  have counted := count_of_agree key
    (fun _ different => lookup_insert_of_ne table value different) test
  rw [lookup_insert_self, bound, Option.any_some, Option.any_some,
    same] at counted
  omega

/-- An erased entry counted if it satisfied the test. -/
theorem count_erase_of_bound {table : Table κ ν} {key : κ} {value : ν}
    (bound : table[key]? = some value) (test : ν → Bool) :
    table.count test =
      count (table.erase key) test + if test value then 1 else 0 := by
  have counted := count_of_agree key
    (fun _ different => lookup_erase_of_ne table different) test
  rw [lookup_erase_self, bound] at counted
  simpa using counted.symm

/-- Nothing is counted when no entry satisfies the test. -/
theorem count_eq_zero_iff {table : Table κ ν} {test : ν → Bool} :
    table.count test = 0 ↔
      ∀ (key : κ) (value : ν), table[key]? = some value →
        test value = false := by
  rw [count, ← Std.ExtTreeMap.eq_empty_iff_size_eq_zero]
  constructor
  · intro empty key value bound
    have none : (table.filter fun _ value => test value)[key]? = none := by
      rw [empty, Std.ExtTreeMap.getElem?_empty]
    rw [Std.ExtTreeMap.getElem?_filter', bound,
      Option.filter_eq_none_iff] at none
    exact Bool.eq_false_iff.mpr (none value rfl)
  · intro fails
    apply Std.ExtTreeMap.ext_getElem?
    intro key
    rw [Std.ExtTreeMap.getElem?_filter', Std.ExtTreeMap.getElem?_empty,
      Option.filter_eq_none_iff]
    intro value bound
    exact Bool.eq_false_iff.mp (fails key value bound)

/-! ## Rebuilding a table from its entries -/

/-- Insert a list of entries in order into a table, keeping bound keys. -/
def insertAll (table : Table κ ν) : List (κ × ν) → Table κ ν
  | [] => table
  | entry :: entries => insertAll (table.insertIfNew entry.1 entry.2) entries

theorem lookup_insertAll_of_bound
    (table : Table κ ν) (entries : List (κ × ν))
    {key : κ} {value : ν} (bound : table[key]? = some value) :
    (table.insertAll entries)[key]? = some value := by
  induction entries generalizing table with
  | nil => exact bound
  | cons entry entries inductionHypothesis =>
      apply inductionHypothesis
      have present : key ∈ table := by
        simp [Std.ExtTreeMap.mem_iff_isSome_getElem?, bound]
      rw [Std.ExtTreeMap.getElem?_insertIfNew, if_neg, bound]
      rintro ⟨same, absent⟩
      rw [Std.compare_eq_iff_eq] at same
      exact absent (same ▸ present)

theorem lookup_insertAll_of_absent
    (table : Table κ ν) (entries : List (κ × ν))
    {key : κ} (unbound : table[key]? = none)
    (absent : ∀ entry ∈ entries, entry.1 ≠ key) :
    (table.insertAll entries)[key]? = none := by
  induction entries generalizing table with
  | nil => exact unbound
  | cons entry entries inductionHypothesis =>
      apply inductionHypothesis
      · have different : entry.1 ≠ key := absent entry (by simp)
        simp [Std.ExtTreeMap.getElem?_insertIfNew, different, unbound]
      · intro other present
        exact absent other (by simp [present])

theorem lookup_insertAll_of_mem
    (table : Table κ ν) (entries : List (κ × ν))
    (distinct : entries.Pairwise fun left right => left.1 ≠ right.1)
    {key : κ} {value : ν} (unbound : table[key]? = none)
    (present : (key, value) ∈ entries) :
    (table.insertAll entries)[key]? = some value := by
  induction entries generalizing table with
  | nil => simp at present
  | cons entry entries inductionHypothesis =>
      obtain ⟨headDistinct, tailDistinct⟩ := List.pairwise_cons.mp distinct
      rcases List.mem_cons.mp present with same | inTail
      · subst same
        refine lookup_insertAll_of_bound
          (table.insertIfNew key value) entries ?_
        rw [insertIfNew_of_fresh value unbound]
        simp
      · apply inductionHypothesis _ tailDistinct _ inTail
        have different : entry.1 ≠ key := headDistinct _ inTail
        simp [Std.ExtTreeMap.getElem?_insertIfNew, different, unbound]

/-- Inserting the changed entries of a table into an empty one changes each
entry of the table. -/
theorem lookup_insertAll_map_toList {μ : Type}
    (table : Table κ ν) (change : κ → ν → μ) (key : κ) :
    (insertAll (∅ : Table κ μ)
        (table.toList.map fun entry =>
          (entry.1, change entry.1 entry.2)))[key]? =
      (table[key]?).map (change key) := by
  have distinct :
      (table.toList.map fun entry =>
        (entry.1, change entry.1 entry.2)).Pairwise fun left right =>
          left.1 ≠ right.1 := by
    rw [List.pairwise_map]
    simpa using Std.ExtTreeMap.distinct_keys_toList (t := table)
  cases bound : table[key]? with
  | none =>
      apply lookup_insertAll_of_absent _ _ (by simp)
      intro entry present same
      obtain ⟨⟨other, value⟩, listed, rfl⟩ := List.mem_map.mp present
      rw [Std.ExtTreeMap.mem_toList_iff_getElem?_eq_some] at listed
      simp only at same
      rw [same, bound] at listed
      cases listed
  | some value =>
      apply lookup_insertAll_of_mem _ _ distinct (by simp)
      rw [List.mem_map]
      exact ⟨(key, value),
        Std.ExtTreeMap.mem_toList_iff_getElem?_eq_some.mpr bound, rfl⟩

/-- The same entries as a table with changed values. -/
theorem insertAll_map_toList {μ : Type}
    (table : Table κ ν) (change : κ → ν → μ) :
    insertAll (∅ : Table κ μ)
        (table.toList.map fun entry =>
          (entry.1, change entry.1 entry.2)) =
      table.map change := by
  apply Std.ExtTreeMap.ext_getElem?
  intro key
  rw [lookup_insertAll_map_toList, Std.ExtTreeMap.getElem?_map]

omit [Std.LawfulEqOrd κ] in
/-- A change that the test does not see changes what is found. -/
theorem findIf_map {μ : Type} (table : Table κ ν) {change : κ → ν → μ}
    {test : μ → Bool} (testBefore : ν → Bool)
    (same : ∀ key value, test (change key value) = testBefore value) :
    findIf (table.map change : Table κ μ) test =
      (table.findIf testBefore).map fun entry =>
        (entry.1, change entry.1 entry.2) := by
  rw [findIf, findIf, Std.ExtTreeMap.toList_map, List.find?_map]
  congr 2
  funext entry
  exact same entry.1 entry.2

end Table

end Logic
end Spaceless
