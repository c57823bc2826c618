import Spaceless.Client.PutSession
import Spaceless.Logic.Precision
import Spaceless.StorageNode.Unopened

/-!
# The number of fragments of a file

The client and the storage node divide the size of a file by the length of a
fragment in `float` and round up.  Sizes just above a multiple of the length
lose their last fragment where the quotient is rounded down to that multiple.
-/

namespace Spaceless
namespace System

open Foundation Logic Protocol StorageNode
open Client (PutSession)

/-- The least number of fragments that hold a file of that size. -/
def FewestFragments (size : Nat) (count : Int) : Prop :=
  IsLeast {count : Int | (size : Int) ≤ count * maxFragmentContentLen} count

/-- The size at 24 significant bits is above the fragments before the last by
more than half a unit of their number, and not above all of them by more. -/
def Separated (size : Nat) : Prop :=
  let before := (size - 1) / 50000
  let rounded := roundNat 24 size
  2 ^ 24 * (50000 * before) + 50000 * 2 ^ Nat.log 2 before <
      2 ^ 24 * rounded ∧
    2 ^ 24 * rounded ≤
      2 ^ 24 * (50000 * (before + 1)) + 50000 * 2 ^ Nat.log 2 (before + 1)

/-- The sizes whose fragments are counted right. -/
def CountsFragments (size : Nat) : Prop :=
  size = 0 ∨ Separated size

theorem fewestFragments_iff (size : Nat) (count : Int) :
    FewestFragments size count ↔ count = (size - 1 : Int) / 50000 + 1 := by
  have least : FewestFragments size ((size - 1 : Int) / 50000 + 1) := by
    refine ⟨?_, fun other holds => ?_⟩
    · simp only [Set.mem_ofPred_eq, maxFragmentContentLen]
      omega
    · simp only [Set.mem_ofPred_eq, maxFragmentContentLen] at holds
      omega
  constructor
  · exact fun fewest => fewest.unique least
  · rintro rfl
    exact least

/-- The quotient is rounded at most to a number of fragments exactly where the
rounded size is not above them by more than half a unit. -/
theorem roundToBits_div_le_iff {rounded count : Nat} (positive : 0 < rounded)
    (counts : 0 < count) (small : count < 2 ^ 23) :
    roundToBits 24 ((rounded : ℚ) / (50000 : Int)) ≤ count ↔
      2 ^ 24 * rounded ≤
        2 ^ 24 * (50000 * count) + 50000 * 2 ^ Nat.log 2 count := by
  have value : (0 : ℚ) < (rounded : ℚ) / (50000 : Int) := by
    positivity
  have unit : (2 : ℚ) ^ ((Nat.log 2 count : Int) - (24 : Nat)) =
      2 ^ Nat.log 2 count / 2 ^ 24 := by
    rw [zpow_sub₀ (by norm_num), zpow_natCast, zpow_natCast]
  rw [roundToBits_le_natCast_iff value counts small, unit,
    div_le_iff₀ (by norm_num)]
  have scaled : ((count : ℚ) + 2 ^ Nat.log 2 count / 2 ^ 24) * (50000 : Int) =
      ((2 ^ 24 * (50000 * count) + 50000 * 2 ^ Nat.log 2 count : Nat) : ℚ) /
        2 ^ 24 := by
    push_cast
    ring
  rw [scaled, le_div_iff₀ (by norm_num), mul_comm]
  exact_mod_cast Iff.rfl

theorem roundNat_pos {size : Nat} (positive : 0 < size) :
    0 < roundNat 24 size := by
  have value : (0 : ℚ) < size := by exact_mod_cast positive
  have power := zpow_pos (by norm_num : (0 : ℚ) < 2) (Int.log 2 (size : ℚ))
  have rounded := zpow_log_le_roundToBits value (by norm_num : 0 < 24)
  rw [roundToBits_natCast] at rounded
  exact_mod_cast power.trans_le rounded

/-- The count in `float` is the integer one exactly for these sizes. -/
theorem fewestFragments_maxFragmentOf {size : Nat}
    (small : size < 2147483648) :
    FewestFragments size (maxFragmentOf size maxFragmentContentLen) ↔
      CountsFragments size := by
  rw [fewestFragments_iff, maxFragmentOf, roundToBits_natCast]
  rcases Nat.eq_zero_or_pos size with rfl | positive
  · refine iff_of_true ?_ (Or.inl rfl)
    decide +kernel
  have rounded := roundNat_pos positive
  obtain ⟨before, same⟩ : ∃ before, before = (size - 1) / 50000 := ⟨_, rfl⟩
  have fragments : ((size : Int) - 1) / 50000 + 1 = (before + 1 : Nat) := by
    omega
  have upper := @roundToBits_div_le_iff (roundNat 24 size) (before + 1)
    rounded (by omega) (by omega)
  have lower : (before : ℚ) <
        roundToBits 24 ((roundNat 24 size : ℚ) / (50000 : Int)) ↔
      2 ^ 24 * (50000 * before) + 50000 * 2 ^ Nat.log 2 before <
        2 ^ 24 * roundNat 24 size := by
    rcases Nat.eq_zero_or_pos before with rfl | counts
    · have value : (0 : ℚ) < (roundNat 24 size : ℚ) / (50000 : Int) := by
        positivity
      refine iff_of_true ?_ ?_
      · exact (zpow_pos (by norm_num) _).trans_le
          (zpow_log_le_roundToBits value (by norm_num))
      · simp only [Nat.log_zero_right]
        omega
    · rw [← not_le, roundToBits_div_le_iff rounded counts (by omega), not_le]
  rw [fragments, Int.ceil_eq_iff]
  have separated : CountsFragments size ↔ Separated size :=
    or_iff_right (by omega)
  rw [separated, Separated, ← same, ← lower, ← upper]
  push_cast
  rw [add_sub_cancel_right]
  exact Iff.rfl

/-- Sizes of up to three hundred and thirty-six fragments are counted
right. -/
theorem countsFragments_of_le {size : Nat} (small : size ≤ 16800000) :
    CountsFragments size := by
  rcases Nat.eq_zero_or_pos size with empty | positive
  · exact Or.inl empty
  have before : 2 ^ Nat.log 2 ((size - 1) / 50000) ≤ 335 := by
    rcases Nat.eq_zero_or_pos ((size - 1) / 50000) with none | counts
    · rw [none]
      simp
    · have power := Nat.pow_log_le_self 2 counts.ne'
      omega
  have near : (size - 1) / 50000 * 50000 < roundNat 24 size ∧
      roundNat 24 size ≤ ((size - 1) / 50000 + 1) * 50000 := by
    rcases Nat.lt_or_ge size (2 ^ 24) with few | many
    · rw [roundNat_eq_self (Nat.log_lt_of_lt_pow positive.ne' few)]
      omega
    · have log : Nat.log 2 size = 24 :=
        Nat.log_eq_of_pow_le_of_lt_pow many (by omega)
      simp only [roundNat, log]
      split_ifs <;> omega
  refine Or.inr ⟨?_, ?_⟩
  · omega
  · omega

theorem putFile_of_found {files : Text → Option (List UInt8)}
    {localPath : Text} {content : List UInt8}
    (found : files localPath = some content) (session : PutSession)
    (groupId : Int) (remotePath : Text) :
    ∃ next request,
      session.putFile files groupId localPath remotePath =
          some (next, request) ∧
        request.maxFragment =
          maxFragmentOf content.length maxFragmentContentLen := by
  unfold PutSession.putFile
  rw [found]
  exact ⟨_, _, rfl, rfl⟩

theorem registerGetSession_count {permits : FileMode → Text → Bool}
    {storage : Storage} {filename : Text} {content : List UInt8}
    (found : storage.files.files[storage.files.getAbsolutePath filename]? =
      some content) :
    Action.Ensures
      (Storage.registerGetSession permits filename maxFragmentContentLen)
      storage
      (fun session _ => session.maxFragment =
        maxFragmentOf content.length maxFragmentContentLen)
      fun _ _ => True := by
  simp only [Storage.registerGetSession, Storage.onSessions,
    Action.ensures_bind, Action.ensures_zoom, Action.ensures_check,
    Action.ensures_modify, Action.ensures_pure]
  refine Action.ensures_of_forall ?_ fun _ _ => trivial
  intro session sessions
  refine ⟨?_, fun _ _ => trivial⟩
  intro size isSize
  rw [Storage.fileSize, found] at isSize
  cases permitted : permits .read
      (storage.files.getAbsolutePath filename) with
  | false =>
      rw [permitted] at isSize
      cases isSize
  | true =>
      rw [permitted] at isSize
      cases isSize
      rfl

/-- The client asks for as many fragments as hold its file, and the storage
node announces as many as hold the file that it opens, exactly for these
sizes. -/
theorem maxFragment_iff (content : List UInt8)
    (small : content.length < 2147483648) :
    (∀ (files : Text → Option (List UInt8)) (session : PutSession)
        (groupId : Int) (localPath remotePath : Text),
      files localPath = some content →
      ∃ next request,
        session.putFile files groupId localPath remotePath =
            some (next, request) ∧
          (FewestFragments content.length request.maxFragment ↔
            CountsFragments content.length)) ∧
      ∀ (permits : FileMode → Text → Bool) (storage later : Storage)
        (filename : Text) (session : FileSession),
      storage.files.files[storage.files.getAbsolutePath filename]? =
        some content →
      Storage.registerGetSession permits filename maxFragmentContentLen
          storage = (.ok session, later) →
        (FewestFragments content.length session.maxFragment ↔
          CountsFragments content.length) := by
  have counted := fewestFragments_maxFragmentOf small
  constructor
  · intro files session groupId localPath remotePath found
    obtain ⟨next, request, put, count⟩ :=
      putFile_of_found found session groupId remotePath
    refine ⟨next, request, put, ?_⟩
    rw [count]
    exact counted
  · intro permits storage later filename session found registered
    rw [(registerGetSession_count found).of_ok registered]
    exact counted

/-- A node that stores the content under the name `f`. -/
def storing (content : List UInt8) : Storage :=
  Storage.init ['d'] ((∅ : Table Text (List UInt8)).insert ['d', '/', 'f']
    content)

theorem storing_found (content : List UInt8) :
    (storing content).files.files[
      (storing content).files.getAbsolutePath ['f']]? = some content :=
  Table.lookup_insert_self _ _ _

theorem registerGetSession_storing (content : List UInt8) :
    ∃ session later,
      Storage.registerGetSession (fun _ _ => true) ['f']
          maxFragmentContentLen (storing content) = (.ok session, later) ∧
        session.maxFragment =
          maxFragmentOf content.length maxFragmentContentLen :=
  ⟨_, _, registerGetSession_of_found FileSessionManager.keyed_init
    (unused_started _) (storing_found content) rfl maxFragmentContentLen, rfl⟩

/-- A content of one byte more than a fragment. -/
theorem maxFragment_iff_twoFragments :
    (∃ next request,
        PutSession.init.putFile (fun _ => some (List.replicate 50001 7)) 1
            ['a'] ['b'] = some (next, request) ∧
          FewestFragments 50001 request.maxFragment) ∧
      ∃ session later,
        Storage.registerGetSession (fun _ _ => true) ['f']
            maxFragmentContentLen (storing (List.replicate 50001 7)) =
              (.ok session, later) ∧
          FewestFragments 50001 session.maxFragment := by
  have length : (List.replicate 50001 (7 : UInt8)).length = 50001 :=
    List.length_replicate
  have counted : CountsFragments (List.replicate 50001 (7 : UInt8)).length :=
    countsFragments_of_le (by rw [length]; decide)
  obtain ⟨ofClient, ofNode⟩ :=
    maxFragment_iff (List.replicate 50001 7) (by rw [length]; decide)
  constructor
  · obtain ⟨next, request, put, fewest⟩ :=
      ofClient (fun _ => some (List.replicate 50001 7)) PutSession.init 1
        ['a'] ['b'] rfl
    exact ⟨next, request, put, length ▸ fewest.mpr counted⟩
  · obtain ⟨session, later, registered, -⟩ :=
      registerGetSession_storing (List.replicate 50001 7)
    have fewest := ofNode _ _ later ['f'] session (storing_found _) registered
    exact ⟨session, later, registered, length ▸ fewest.mpr counted⟩

/-- Of one byte more than three hundred and thirty-six fragments both leave
out the last byte. -/
theorem not_fewestFragments :
    (∃ next request,
        PutSession.init.putFile (fun _ => some (List.replicate 16800001 7)) 1
            ['a'] ['b'] = some (next, request) ∧
          ¬FewestFragments 16800001 request.maxFragment) ∧
      ∃ session later,
        Storage.registerGetSession (fun _ _ => true) ['f']
            maxFragmentContentLen (storing (List.replicate 16800001 7)) =
              (.ok session, later) ∧
          ¬FewestFragments 16800001 session.maxFragment := by
  have fewer : ¬FewestFragments 16800001
      (maxFragmentOf 16800001 maxFragmentContentLen) := by
    rw [fewestFragments_iff]
    decide +kernel
  constructor
  · obtain ⟨next, request, put, count⟩ :=
      @putFile_of_found (fun _ => some (List.replicate 16800001 7)) ['a'] _
        rfl PutSession.init 1 ['b']
    rw [List.length_replicate] at count
    exact ⟨next, request, put, count ▸ fewer⟩
  · obtain ⟨session, later, registered, count⟩ :=
      registerGetSession_storing (List.replicate 16800001 7)
    rw [List.length_replicate] at count
    exact ⟨session, later, registered, count ▸ fewer⟩

end System
end Spaceless
