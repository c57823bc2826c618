import Spaceless.StorageNode.Call
import Spaceless.StorageNode.Stream

/-!
# The position of a fragment

A fragment request is refused from the number of fragments on, but neither
below zero nor where the start position leaves the range of `int`.
-/

namespace Spaceless
namespace StorageNode

open Logic Foundation Protocol

/-- The request ends with an exception. -/
def Refused {α : Type} (result : Except Fault α) : Prop :=
  ∃ thrown, result = .error (.exception thrown)

namespace Storage

/-- The fragment is one of the session, and its start position is exact. -/
def SeeksExactly (storage : Storage) (sessionId fragmentIndex : Int) : Prop :=
  ∃ session, storage.sessions.findSession sessionId = some session ∧
    0 ≤ fragmentIndex ∧ fragmentIndex < session.maxFragment ∧
      startPosOf fragmentIndex =
        .ok (fragmentIndex * maxFragmentContentLen)

/-- An index below the number of fragments has a start position in `int` and
is not negative, unless the file of the session is out of reach. -/
def Positioned (reaches : Text → Prop) (storage : Storage)
    (sessionId fragmentIndex : Int) : Prop :=
  ∀ session, storage.sessions.findSession sessionId = some session →
    fragmentIndex < session.maxFragment →
      0 ≤ fragmentIndex ∧ fragmentIndex ≤ 42949 ∨
        -42949 ≤ fragmentIndex ∧ fragmentIndex < 0 ∧
          ¬reaches session.filename

/-- `put_file` can write: there is a stream for the path, or it can be
opened. -/
def CanPut (permits : FileMode → Text → Bool) (storage : Storage)
    (filename : Text) : Prop :=
  SharingFileManager.Opens permits storage.files
    (storage.files.getAbsolutePath filename)

/-- `get_file` can read: the file exists, too. -/
def CanGet (permits : FileMode → Text → Bool) (storage : Storage)
    (filename : Text) : Prop :=
  storage.files.fileExists (storage.files.getAbsolutePath filename) = true ∧
    CanPut permits storage filename

theorem startPosOf_eq_ok_iff (fragmentIndex : Int) :
    startPosOf fragmentIndex =
        .ok (fragmentIndex * maxFragmentContentLen) ↔
      -42949 ≤ fragmentIndex ∧ fragmentIndex ≤ 42949 := by
  unfold startPosOf maxFragmentContentLen
  dsimp only
  by_cases fits : -2147483648 ≤ fragmentIndex * 50000 ∧
      fragmentIndex * 50000 < 2147483648
  · rw [if_pos fits]
    exact iff_of_true rfl (by omega)
  · rw [if_neg fits]
    exact iff_of_false (by simp) (by omega)

theorem range_of_startPosOf {fragmentIndex startPos : Int}
    (position : startPosOf fragmentIndex = .ok startPos) :
    -42949 ≤ fragmentIndex ∧ fragmentIndex ≤ 42949 := by
  rcases startPosOf_cases fragmentIndex with exact | undefined
  · exact (startPosOf_eq_ok_iff fragmentIndex).mp exact
  · rw [undefined] at position
    cases position

variable {α : Type} {storage : Storage} {sessionId fragmentIndex : Int}
  {operation : Text → Int → Action Fault SharingFileManager α}
  {outcome : Except Fault α × Storage} {reaches : Text → Prop}

/-- The operation succeeds on files within reach, and is refused on others. -/
def Decides (reaches : Text → Prop)
    (operation : Text → Int → Action Fault SharingFileManager α)
    (files : SharingFileManager) : Prop :=
  ∀ filename startPos,
    (reaches filename ∧ ∃ value later,
      operation filename startPos files = (.ok value, later)) ∨
    (¬reaches filename ∧ ∃ thrown later,
      operation filename startPos files =
        (.error (.exception thrown), later))

/-- What is refused, and what seeks, for both fragment requests. -/
theorem FragmentRun.seeks_iff
    (run : FragmentRun storage sessionId fragmentIndex operation outcome)
    (decides : Decides reaches operation storage.files) :
    (¬Refused outcome.1 → SeeksExactly storage sessionId fragmentIndex) ↔
      Positioned reaches storage sessionId fragmentIndex := by
  cases run with
  | missing absent =>
      refine iff_of_true (fun answered => absurd ⟨_, rfl⟩ answered) ?_
      intro session found
      rw [absent] at found
      cases found
  | outside found beyond =>
      refine iff_of_true (fun answered => absurd ⟨_, rfl⟩ answered) ?_
      intro session same inside
      rw [found] at same
      cases same
      omega
  | overflow found inside position =>
      have undefined : startPosOf fragmentIndex = .error .undefined := by
        apply (startPosOf_cases fragmentIndex).resolve_left
        intro exact
        rw [exact] at position
        cases position
      rw [undefined] at position
      cases position
      have outOfRange := (startPosOf_eq_ok_iff fragmentIndex).not.mp
        (by simp [undefined])
      refine iff_of_false ?_ ?_
      · intro seeks
        obtain ⟨session, -, -, -, exact⟩ := seeks fun ⟨thrown, refused⟩ =>
          Fault.noConfusion (Except.error.inj refused)
        rw [undefined] at exact
        cases exact
      · intro positioned
        have bounds := positioned _ found inside
        omega
  | @failed session startPos fault files found inside position ran =>
      have bounds := range_of_startPosOf position
      rcases decides session.filename startPos with
        ⟨-, value, later, succeeded⟩ | ⟨out, thrown, later, refused⟩
      · rw [succeeded] at ran
        cases ran
      · rw [refused] at ran
        cases ran
        refine iff_of_true (fun answered => absurd ⟨_, rfl⟩ answered) ?_
        intro other same _
        rw [found] at same
        cases same
        by_cases negative : fragmentIndex < 0
        · exact Or.inr ⟨bounds.1, negative, out⟩
        · exact Or.inl ⟨by omega, bounds.2⟩
  | @done session startPos value files found inside position ran =>
      have bounds := range_of_startPosOf position
      rcases decides session.filename startPos with
        ⟨reached, -⟩ | ⟨out, thrown, later, refused⟩
      · have answered : ¬Refused (Except.ok value : Except Fault α) := by
          rintro ⟨thrown, refused⟩
          cases refused
        constructor
        · intro seeks
          obtain ⟨-, -, nonneg, -⟩ := seeks answered
          intro other _ _
          exact Or.inl ⟨nonneg, bounds.2⟩
        · intro positioned _
          obtain ⟨nonneg, -⟩ := (positioned session found inside).resolve_right
            fun unreached => unreached.2.2 reached
          exact ⟨session, found, nonneg, inside,
            (startPosOf_eq_ok_iff fragmentIndex).mpr bounds⟩
      · rw [refused] at ran
        cases ran

theorem decides_putFile (permits : FileMode → Text → Bool)
    (storage : Storage) (fileContent : List UInt8) :
    Decides (CanPut permits storage)
      (fun filename startPos => SharingFileManager.putFile permits filename
        fileContent startPos) storage.files := by
  intro filename startPos
  rcases SharingFileManager.putFile_cases permits storage.files filename
    fileContent startPos with
    ⟨opens, stream, opened, -, put⟩ | ⟨shut, refused⟩
  · exact Or.inl ⟨opens, (), _, put⟩
  · exact Or.inr ⟨shut, _, _, refused⟩

theorem decides_getFile (permits : FileMode → Text → Bool)
    (storage : Storage) (length : Nat) :
    Decides (CanGet permits storage)
      (fun filename startPos => SharingFileManager.getFile permits filename
        length startPos) storage.files := by
  intro filename startPos
  rcases SharingFileManager.getFile_cases permits storage.files filename
    length startPos with
    ⟨reached, stream, opened, -, got⟩ | ⟨out, fault, thrown, refused⟩
  · exact Or.inl ⟨reached, _, _, got⟩
  · rcases thrown with rfl | rfl
    · exact Or.inr ⟨out, _, _, refused⟩
    · exact Or.inr ⟨out, _, _, refused⟩

/-- A fragment request that is not refused seeks to the exact position of a
fragment of its session, exactly where its index is in range. -/
theorem seeksExactly_iff (permits : FileMode → Text → Bool)
    (storage : Storage) :
    (∀ request : ReqPutFile,
      (¬Refused (putFragment permits request storage).1 →
          SeeksExactly storage request.sessionId request.fragmentIndex) ↔
        Positioned (CanPut permits storage) storage request.sessionId
          request.fragmentIndex) ∧
    ∀ request : ReqGetFile,
      (¬Refused (getFragment permits request storage).1 →
          SeeksExactly storage request.sessionId request.fragmentIndex) ↔
        Positioned (CanGet permits storage) storage request.sessionId
          request.fragmentIndex := by
  constructor
  · intro request
    exact (putFragment_run permits storage request).seeks_iff
      (decides_putFile permits storage request.fragmentContent)
  · intro request
    exact (getFragment_run permits storage request).seeks_iff
      (decides_getFile permits storage maxFragmentContentLen.toNat)

/-- A node with one put session of the given number of fragments. -/
def putting (maxFragment : Int) : Storage :=
  (putSession { filePath := ['f'], maxFragment := maxFragment }).after
    (init ['d'] ∅)

/-- A negative index is written at the start of the file, and a large one
makes the product overflow. -/
theorem not_seeksExactly :
    ¬Refused (putFragment (fun _ _ => true)
        { sessionId := 1, fragmentIndex := -1, fragmentContent := [7] }
        (putting 1)).1 ∧
      ¬SeeksExactly (putting 1) 1 (-1) ∧
      ¬Refused (getFragment (fun _ _ => true)
        { sessionId := 1, fragmentIndex := 42950 } (putting 42951)).1 ∧
      ¬SeeksExactly (putting 42951) 1 42950 := by
  have put : (putFragment (fun _ _ => true)
      { sessionId := 1, fragmentIndex := -1, fragmentContent := [7] }
      (putting 1)).1 = .ok () := by decide +kernel
  have got : (getFragment (fun _ _ => true)
      { sessionId := 1, fragmentIndex := 42950 } (putting 42951)).1 =
        .error .undefined := by decide +kernel
  rw [put, got]
  refine ⟨?_, ?_, ?_, ?_⟩
  · rintro ⟨thrown, refused⟩
    cases refused
  · rintro ⟨session, -, nonneg, -⟩
    omega
  · rintro ⟨thrown, refused⟩
    cases refused
  · rintro ⟨session, -, -, -, exact⟩
    rw [startPosOf_eq_ok_iff] at exact
    omega

end Storage

end StorageNode
end Spaceless
