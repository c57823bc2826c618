import Spaceless.Logic.Machine
import Spaceless.ResourceServer.Tree

/-!
# The use counts of storage files

A storage file counts the general files that refer to it.  `register_file`
and `remove_file` keep this count by hand; the machine of this module calls
them in any order, and the files of all groups may share storage files.
-/

namespace Spaceless
namespace ResourceServer

open Logic Foundation

/-- The file is a general file on the storage file. -/
def SharingFile.refersTo (storageFileId : Int) (file : SharingFile) : Bool :=
  match file.body with
  | .generalFile fileId => fileId == storageFileId
  | _ => false

namespace SharingFileManager

/-- The number of general files that refer to a storage file. -/
def references (manager : SharingFileManager) (storageFileId : Int) : Nat :=
  manager.fileList.count (SharingFile.refersTo storageFileId)

/-- The type of the file with the id, if there is one. -/
def typeOf (manager : SharingFileManager) (fileId : Int) : Option FileType :=
  (manager.findFile fileId).map SharingFile.fileType

/-- The id is that of a present storage file. -/
def Stores (manager : SharingFileManager) (fileId : Int) : Prop :=
  manager.typeOf fileId = some .storageFile

instance (manager : SharingFileManager) (fileId : Int) :
    Decidable (manager.Stores fileId) :=
  inferInstanceAs (Decidable (_ = _))

/-- Every general file has its storage file, and every storage file counts
its general files. -/
structure Counted (manager : SharingFileManager) : Prop where
  stored : ∀ fileId fileName storageFileId : _,
    manager.findFile fileId = some ⟨fileName, .generalFile storageFileId⟩ →
    manager.Stores storageFileId
  counted : ∀ fileId fileName nodeId useCounting : _,
    manager.findFile fileId =
      some ⟨fileName, .storageFile nodeId useCounting⟩ →
    useCounting = manager.references fileId

end SharingFileManager

/-- A call of `SharingFileManager`. -/
inductive FileCall
  | registerFile (fileType : FileType) (fileName : Text) (arg : Int)
  | removeFile (fileId : Int)

namespace SharingFileManager

def call : FileCall → Action Fault SharingFileManager Unit
  | .registerFile fileType fileName arg => do
      let _ ← registerFile fileType fileName arg
      pure ()
  | .removeFile fileId => removeFile fileId

/-- A general file is registered on a present storage file; directories and
general files are removed. -/
def Called (manager : SharingFileManager) : FileCall → Prop
  | .registerFile .generalFile _ arg => manager.Stores arg
  | .registerFile _ _ _ => True
  | .removeFile fileId =>
      manager.typeOf fileId = some .directory ∨
        manager.typeOf fileId = some .generalFile

instance (manager : SharingFileManager) : DecidablePred manager.Called
  | .registerFile .generalFile _ arg =>
      inferInstanceAs (Decidable (manager.Stores arg))
  | .registerFile .directory _ _ => inferInstanceAs (Decidable True)
  | .registerFile .storageFile _ _ => inferInstanceAs (Decidable True)
  | .removeFile _ => inferInstanceAs (Decidable (_ ∨ _))

/-- After the call the storage files are counted, a storage file is gone
exactly if its last reference is, and after an exception all files are as
before. -/
structure Accounts (manager : SharingFileManager) (event : FileCall) :
    Prop where
  counted : ((call event).after manager).Counted
  gone : ∀ fileId, manager.Stores fileId →
    (¬ ((call event).after manager).Stores fileId ↔
      0 < manager.references fileId ∧
        ((call event).after manager).references fileId = 0)
  unchanged : ∀ fault, (call event manager).1 = .error fault →
    ((call event).after manager).fileList = manager.fileList

/-- What is called accounts. -/
def AccountsIfCalled (manager : SharingFileManager) (event : FileCall) :
    Prop :=
  manager.Called event → manager.Accounts event

/-- A general file that is removed is the only one on its storage file. -/
def RemovesSole (manager : SharingFileManager) : FileCall → Prop
  | .registerFile _ _ _ => True
  | .removeFile fileId => ∀ fileName storageFileId,
      manager.findFile fileId =
        some ⟨fileName, .generalFile storageFileId⟩ →
      manager.references storageFileId = 1

/-- What holds as long as nothing but sole references is removed. -/
structure Accounted (manager : SharingFileManager) : Prop where
  counted : manager.Counted
  below : ∀ fileId file, manager.findFile fileId = some file →
    fileId < manager.nextId

end SharingFileManager

/-- The manager from its construction on. -/
def fileMachine : Machine SharingFileManager FileCall where
  start := SharingFileManager.init
  step := fun manager event =>
    if manager.Called event then
      some ((SharingFileManager.call event).after manager)
    else none

namespace SharingFileManager

variable {manager : SharingFileManager}

theorem stores_iff {fileId : Int} :
    manager.Stores fileId ↔ ∃ fileName nodeId useCounting,
      manager.findFile fileId =
        some ⟨fileName, .storageFile nodeId useCounting⟩ := by
  unfold Stores typeOf
  constructor
  · intro stores
    obtain ⟨⟨fileName, body⟩, found, type⟩ := Option.map_eq_some_iff.mp stores
    cases body with
    | directory fileList => cases type
    | generalFile storageFileId => cases type
    | storageFile nodeId useCounting =>
        exact ⟨fileName, nodeId, useCounting, found⟩
  · rintro ⟨fileName, nodeId, useCounting, found⟩
    rw [found]
    rfl

theorem refersTo_iff {storageFileId : Int} {file : SharingFile} :
    file.refersTo storageFileId = true ↔
      file.body = .generalFile storageFileId := by
  unfold SharingFile.refersTo
  split
  case h_1 fileId body =>
    rw [body, beq_iff_eq, FileBody.generalFile.injEq]
  case h_2 other =>
    constructor
    · intro impossible
      cases impossible
    · intro body
      exact absurd body (other storageFileId)

/-- A file is referred to when its references are counted. -/
theorem references_pos_iff {storageFileId : Int} :
    0 < manager.references storageFileId ↔ ∃ fileId fileName,
      manager.findFile fileId =
        some ⟨fileName, .generalFile storageFileId⟩ := by
  constructor
  · intro positive
    by_contra none
    apply Nat.ne_of_gt positive
    apply Table.count_eq_zero_iff.mpr
    rintro fileId ⟨fileName, body⟩ found
    apply Bool.eq_false_iff.mpr
    intro refers
    have general : body = .generalFile storageFileId := refersTo_iff.mp refers
    subst general
    exact none ⟨fileId, fileName, found⟩
  · rintro ⟨fileId, fileName, found⟩
    apply Nat.pos_of_ne_zero
    intro zero
    have refers := Table.count_eq_zero_iff.mp zero fileId _ found
    rw [refersTo_iff.mpr rfl] at refers
    cases refers

theorem references_addEntry (fresh : manager.findFile manager.nextId = none)
    (file : SharingFile) (storageFileId : Int) :
    (manager.addEntry file).references storageFileId =
      manager.references storageFileId +
        if file.refersTo storageFileId then 1 else 0 :=
  Table.count_insert_of_absent fresh file _

theorem references_eraseFile {fileId : Int} {file : SharingFile}
    (found : manager.findFile fileId = some file) (storageFileId : Int) :
    manager.references storageFileId =
      (manager.eraseFile fileId).references storageFileId +
        if file.refersTo storageFileId then 1 else 0 :=
  Table.count_erase_of_bound found _

/-- A file that is replaced by one on the same storage file. -/
theorem references_setFile {fileId : Int} {old file : SharingFile}
    (found : manager.findFile fileId = some old) {storageFileId : Int}
    (same : file.refersTo storageFileId = old.refersTo storageFileId) :
    (manager.setFile fileId file).references storageFileId =
      manager.references storageFileId :=
  Table.count_insert_of_same found same

namespace Accounted

theorem init : Accounted SharingFileManager.init where
  counted :=
    { stored := by
        intro fileId fileName storageFileId found
        cases found
      counted := by
        intro fileId fileName nodeId useCounting found
        cases found }
  below := by
    intro fileId file found
    cases found

variable (registered : Accounted manager)

include registered

theorem fresh : manager.findFile manager.nextId = none := by
  cases found : manager.findFile manager.nextId with
  | none => rfl
  | some file =>
      exact absurd (registered.below _ _ found) (Int.lt_irrefl _)

theorem ne_nextId {fileId : Int} {file : SharingFile}
    (found : manager.findFile fileId = some file) :
    manager.nextId ≠ fileId := by
  have below := registered.below fileId file found
  omega

/-- No file refers to the next id. -/
theorem references_nextId : manager.references manager.nextId = 0 := by
  by_contra some
  obtain ⟨fileId, fileName, found⟩ :=
    references_pos_iff.mp (Nat.pos_of_ne_zero some)
  obtain ⟨name, nodeId, useCounting, stored⟩ :=
    stores_iff.mp (registered.counted.stored _ _ _ found)
  exact registered.ne_nextId stored rfl

theorem below_addEntry (file : SharingFile) :
    ∀ fileId other, (manager.addEntry file).findFile fileId = some other →
      fileId < (manager.addEntry file).nextId := by
  intro fileId other found
  rw [findFile_addEntry] at found
  have next : (manager.addEntry file).nextId = manager.nextId + 1 := rfl
  split at found
  case isTrue same => omega
  case isFalse =>
    have below := registered.below fileId other found
    omega

/-- Storage files stay when a file is added. -/
theorem stores_addEntry (file : SharingFile) {fileId : Int}
    (stores : manager.Stores fileId) :
    (manager.addEntry file).Stores fileId := by
  obtain ⟨name, nodeId, useCounting, found⟩ := stores_iff.mp stores
  rw [stores_iff, findFile_addEntry, if_neg (registered.ne_nextId found)]
  exact ⟨name, nodeId, useCounting, found⟩

/-- A new directory, or a new storage file without references. -/
theorem addEntry {file : SharingFile}
    (unused : ∀ storageFileId, file.body ≠ .generalFile storageFileId)
    (zero : ∀ nodeId useCounting,
      file.body = .storageFile nodeId useCounting → useCounting = 0) :
    Accounted (manager.addEntry file) where
  counted :=
    { stored := by
        intro fileId fileName storageFileId found
        rw [findFile_addEntry] at found
        split at found
        case isTrue =>
          cases found
          exact absurd rfl (unused storageFileId)
        case isFalse =>
          exact registered.stores_addEntry file
            (registered.counted.stored _ _ _ found)
      counted := by
        intro fileId fileName nodeId useCounting found
        have plain : file.refersTo fileId = false := by
          apply Bool.eq_false_iff.mpr
          intro refers
          exact unused fileId (refersTo_iff.mp refers)
        rw [references_addEntry registered.fresh, plain]
        rw [findFile_addEntry] at found
        split at found
        case isTrue same =>
          cases found
          rw [← same, registered.references_nextId]
          exact zero nodeId useCounting rfl
        case isFalse =>
          exact registered.counted.counted _ _ _ _ found }
  below := registered.below_addEntry file

omit registered in
/-- A new general file and the count of its storage file. -/
theorem findFile_used {arg : Int} (file general : SharingFile)
    (fileId : Int) :
    ((manager.setFile arg file).addEntry general).findFile fileId =
      if manager.nextId = fileId then some general
      else if arg = fileId then some file else manager.findFile fileId := by
  rw [findFile_addEntry, findFile_setFile]
  rfl

theorem references_used {arg nodeId useCounting : Int}
    {name fileName : Text} (found : manager.findFile arg =
      some ⟨name, .storageFile nodeId useCounting⟩) (storageFileId : Int) :
    ((manager.setFile arg
        ⟨name, .storageFile nodeId (useCounting + 1)⟩).addEntry
          ⟨fileName, .generalFile arg⟩).references storageFileId =
      manager.references storageFileId +
        if arg = storageFileId then 1 else 0 := by
  have fresh : (manager.setFile arg
      ⟨name, .storageFile nodeId (useCounting + 1)⟩).findFile
        manager.nextId = none := by
    rw [findFile_setFile, if_neg (registered.ne_nextId found).symm]
    exact registered.fresh
  have counting : (manager.setFile arg
      ⟨name, .storageFile nodeId (useCounting + 1)⟩).references
        storageFileId = manager.references storageFileId :=
    references_setFile found rfl
  rw [references_addEntry fresh, counting]
  congr 1
  apply if_congr _ rfl rfl
  rw [refersTo_iff, FileBody.generalFile.injEq]

/-- A new general file on a present storage file. -/
theorem used {arg nodeId useCounting : Int} {name : Text}
    (found : manager.findFile arg =
      some ⟨name, .storageFile nodeId useCounting⟩) (newName : Text) :
    Accounted ((manager.setFile arg
      ⟨name, .storageFile nodeId (useCounting + 1)⟩).addEntry
        ⟨newName, .generalFile arg⟩) := by
  have stores : ∀ fileId, manager.Stores fileId →
      ((manager.setFile arg
        ⟨name, .storageFile nodeId (useCounting + 1)⟩).addEntry
          ⟨newName, .generalFile arg⟩).Stores fileId := by
    intro fileId stored
    obtain ⟨other, otherNode, uses, present⟩ := stores_iff.mp stored
    rw [stores_iff, findFile_used, if_neg (registered.ne_nextId present)]
    split
    · exact ⟨_, _, _, rfl⟩
    · exact ⟨other, otherNode, uses, present⟩
  refine ⟨⟨?_, ?_⟩, ?_⟩
  · intro fileId fileName storageFileId present
    rw [findFile_used] at present
    split at present
    case isTrue =>
      cases present
      exact stores arg (stores_iff.mpr ⟨_, _, _, found⟩)
    case isFalse =>
      split at present
      case isTrue => cases present
      case isFalse =>
        exact stores _ (registered.counted.stored _ _ _ present)
  · intro fileId fileName otherNode uses present
    rw [registered.references_used found]
    rw [findFile_used] at present
    split at present
    case isTrue => cases present
    case isFalse =>
      split at present
      case isTrue same =>
        cases present
        have counted := registered.counted.counted _ _ _ _ found
        rw [if_pos same, ← same]
        omega
      case isFalse other =>
        rw [if_neg other]
        exact registered.counted.counted _ _ _ _ present
  · intro fileId file present
    have next : ((manager.setFile arg
        ⟨name, .storageFile nodeId (useCounting + 1)⟩).addEntry
          ⟨newName, .generalFile arg⟩).nextId = manager.nextId + 1 := rfl
    rw [findFile_used] at present
    split at present
    case isTrue same => omega
    case isFalse =>
      split at present
      case isTrue same =>
        have below := registered.below _ _ found
        omega
      case isFalse =>
        have below := registered.below _ _ present
        omega

/-- A directory that is removed. -/
theorem eraseDirectory {fileId : Int} {name : Text} {fileList : List Int}
    (found : manager.findFile fileId = some ⟨name, .directory fileList⟩) :
    Accounted (manager.eraseFile fileId) where
  counted :=
    { stored := by
        intro other otherName storageFileId present
        rw [findFile_eraseFile] at present
        split at present
        case isTrue => cases present
        case isFalse =>
          obtain ⟨storage, nodeId, uses, stored⟩ :=
            stores_iff.mp (registered.counted.stored _ _ _ present)
          have differs : fileId ≠ storageFileId := by
            rintro rfl
            cases found.symm.trans stored
          rw [stores_iff, findFile_eraseFile, if_neg differs]
          exact ⟨storage, nodeId, uses, stored⟩
      counted := by
        intro other otherName nodeId uses present
        have same : manager.references other =
            (manager.eraseFile fileId).references other :=
          references_eraseFile found other
        rw [← same]
        rw [findFile_eraseFile] at present
        split at present
        case isTrue => cases present
        case isFalse =>
          exact registered.counted.counted _ _ _ _ present }
  below := by
    intro other file present
    rw [findFile_eraseFile] at present
    split at present
    case isTrue => cases present
    case isFalse => exact registered.below _ _ present

omit registered in
/-- A general file and its storage file that are both erased. -/
theorem references_erased {fileId storageFileId nodeId useCounting : Int}
    {name storageName : Text} (general : manager.findFile fileId =
      some ⟨name, .generalFile storageFileId⟩)
    (storage : manager.findFile storageFileId =
      some ⟨storageName, .storageFile nodeId useCounting⟩) (other : Int) :
    manager.references other =
      ((manager.eraseFile fileId).eraseFile storageFileId).references other +
        if storageFileId = other then 1 else 0 := by
  have differs : fileId ≠ storageFileId := by
    rintro rfl
    cases general.symm.trans storage
  have still : (manager.eraseFile fileId).findFile storageFileId =
      some ⟨storageName, .storageFile nodeId useCounting⟩ := by
    rw [findFile_eraseFile, if_neg differs]
    exact storage
  have second : (manager.eraseFile fileId).references other =
      ((manager.eraseFile fileId).eraseFile storageFileId).references other :=
    references_eraseFile still other
  rw [references_eraseFile general, second]
  congr 1
  apply if_congr _ rfl rfl
  rw [refersTo_iff, FileBody.generalFile.injEq]

/-- The only general file on a storage file, removed with it. -/
theorem eraseSole {fileId storageFileId nodeId useCounting : Int}
    {name storageName : Text} (general : manager.findFile fileId =
      some ⟨name, .generalFile storageFileId⟩)
    (storage : manager.findFile storageFileId =
      some ⟨storageName, .storageFile nodeId useCounting⟩)
    (sole : manager.references storageFileId = 1) :
    Accounted ((manager.eraseFile fileId).eraseFile storageFileId) := by
  have references := references_erased general storage
  have none : ((manager.eraseFile fileId).eraseFile
      storageFileId).references storageFileId = 0 := by
    have own := references storageFileId
    rw [if_pos rfl] at own
    omega
  have before : ∀ {other file}, ((manager.eraseFile fileId).eraseFile
      storageFileId).findFile other = some file →
        storageFileId ≠ other ∧ fileId ≠ other ∧
          manager.findFile other = some file := by
    intro other file present
    rw [findFile_eraseFile, findFile_eraseFile] at present
    split at present
    case isTrue => cases present
    case isFalse storageDiffers =>
      split at present
      case isTrue => cases present
      case isFalse differs => exact ⟨storageDiffers, differs, present⟩
  refine ⟨⟨?_, ?_⟩, ?_⟩
  · intro other otherName otherStorage present
    obtain ⟨-, -, old⟩ := before present
    obtain ⟨otherFile, otherNode, uses, stored⟩ :=
      stores_iff.mp (registered.counted.stored _ _ _ old)
    have storageDiffers : storageFileId ≠ otherStorage := by
      rintro rfl
      exact absurd (references_pos_iff.mpr ⟨other, otherName, present⟩)
        (Nat.not_lt.mpr (Nat.le_of_eq none))
    have differs : fileId ≠ otherStorage := by
      rintro rfl
      cases general.symm.trans stored
    rw [stores_iff, findFile_eraseFile, if_neg storageDiffers,
      findFile_eraseFile, if_neg differs]
    exact ⟨otherFile, otherNode, uses, stored⟩
  · intro other otherName otherNode uses present
    obtain ⟨storageDiffers, -, old⟩ := before present
    have same := references other
    rw [if_neg storageDiffers, Nat.add_zero] at same
    rw [← same]
    exact registered.counted.counted _ _ _ _ old
  · intro other file present
    obtain ⟨-, -, old⟩ := before present
    exact registered.below _ _ old

end Accounted

/-! ## Calls -/

/-- Nothing is lost by a call that adds references and keeps storage
files. -/
theorem accounts_of_grows {event : FileCall} {after : SharingFileManager}
    (ran : call event manager = (.ok (), after)) (counted : after.Counted)
    (stays : ∀ fileId, manager.Stores fileId → after.Stores fileId)
    (grows : ∀ fileId,
      manager.references fileId ≤ after.references fileId) :
    manager.Accounts event := by
  have later : (call event).after manager = after := congrArg Prod.snd ran
  refine ⟨later.symm ▸ counted, ?_, ?_⟩
  · intro fileId stores
    rw [later]
    constructor
    · intro lost
      exact absurd (stays fileId stores) lost
    · rintro ⟨positive, zero⟩
      have more := grows fileId
      omega
  · intro fault thrown
    rw [ran] at thrown
    cases thrown

/-- A file without references of its own is registered. -/
theorem call_registerFile (registered : Accounted manager)
    {fileType : FileType} (fileName : Text) (arg : Int)
    (plain : fileType ≠ .generalFile) :
    ∃ file, call (.registerFile fileType fileName arg) manager =
        (.ok (), manager.addEntry file) ∧
      (∀ storageFileId, file.body ≠ .generalFile storageFileId) ∧
      ∀ nodeId useCounting,
        file.body = .storageFile nodeId useCounting → useCounting = 0 := by
  have inserted := insertFile_eq registered.fresh
  cases fileType with
  | directory =>
      refine ⟨⟨fileName, .directory []⟩, ?_, ?_, ?_⟩
      · rw [call, registerFile, Action.bind_apply, inserted]
        rfl
      · intro storageFileId same
        cases same
      · intro nodeId useCounting same
        cases same
  | generalFile => exact absurd rfl plain
  | storageFile =>
      refine ⟨⟨fileName, .storageFile arg 0⟩, ?_, ?_, ?_⟩
      · rw [call, registerFile, Action.bind_apply, inserted]
        rfl
      · intro storageFileId same
        cases same
      · intro nodeId useCounting same
        cases same
        rfl

/-- A general file is registered on a storage file. -/
theorem call_registerGeneral (registered : Accounted manager)
    {arg nodeId useCounting : Int} {name : Text}
    (found : manager.findFile arg =
      some ⟨name, .storageFile nodeId useCounting⟩) (fileName : Text) :
    call (.registerFile .generalFile fileName arg) manager =
      (.ok (), (manager.setFile arg
        ⟨name, .storageFile nodeId (useCounting + 1)⟩).addEntry
          ⟨fileName, .generalFile arg⟩) := by
  have fresh : (manager.setFile arg
      ⟨name, .storageFile nodeId (useCounting + 1)⟩).findFile
        manager.nextId = none := by
    rw [findFile_setFile, if_neg (registered.ne_nextId found).symm]
    exact registered.fresh
  have uses : useStorageFile arg manager = (.ok (), manager.setFile arg
      ⟨name, .storageFile nodeId (useCounting + 1)⟩) := by
    unfold useStorageFile getFile
    rw [found]
  rw [call, registerFile, Action.bind_apply, Action.bind_apply, uses]
  dsimp only
  rw [insertFile_eq fresh]
  rfl

theorem call_removeDirectory {fileId : Int} {name : Text}
    {fileList : List Int}
    (found : manager.findFile fileId = some ⟨name, .directory fileList⟩) :
    call (.removeFile fileId) manager =
      (.ok (), manager.eraseFile fileId) := by
  rw [call]
  unfold removeFile
  rw [found]

theorem call_removeGeneral
    {fileId storageFileId nodeId useCounting : Int}
    {name storageName : Text} (general : manager.findFile fileId =
      some ⟨name, .generalFile storageFileId⟩)
    (storage : manager.findFile storageFileId =
      some ⟨storageName, .storageFile nodeId useCounting⟩) :
    call (.removeFile fileId) manager =
      (.ok (), (manager.eraseFile fileId).eraseFile storageFileId) := by
  have differs : fileId ≠ storageFileId := by
    rintro rfl
    cases general.symm.trans storage
  have still : (manager.eraseFile fileId).findFile storageFileId =
      some ⟨storageName, .storageFile nodeId useCounting⟩ := by
    rw [findFile_eraseFile, if_neg differs]
    exact storage
  rw [call]
  unfold removeFile getFile
  rw [general]
  dsimp only
  rw [still]

namespace Accounted

variable (registered : Accounted manager)

include registered

/-- Every registration accounts. -/
theorem register {fileType : FileType} {fileName : Text} {arg : Int}
    (called : manager.Called (.registerFile fileType fileName arg)) :
    Accounted ((call (.registerFile fileType fileName arg)).after manager) ∧
      manager.Accounts (.registerFile fileType fileName arg) := by
  by_cases general : fileType = .generalFile
  · subst general
    obtain ⟨name, nodeId, uses, found⟩ := stores_iff.mp called
    have ran := call_registerGeneral registered found fileName
    have after := registered.used found fileName
    refine ⟨?_, accounts_of_grows ran after.counted ?_ ?_⟩
    · rw [Action.after, ran]
      exact after
    · intro fileId stored
      obtain ⟨other, otherNode, otherUses, present⟩ := stores_iff.mp stored
      rw [stores_iff, findFile_used, if_neg (registered.ne_nextId present)]
      split
      · exact ⟨_, _, _, rfl⟩
      · exact ⟨other, otherNode, otherUses, present⟩
    · intro fileId
      rw [registered.references_used found]
      exact Nat.le_add_right _ _
  · obtain ⟨file, ran, unused, zero⟩ :=
      call_registerFile registered fileName arg general
    have after := registered.addEntry unused zero
    refine ⟨?_, accounts_of_grows ran after.counted ?_ ?_⟩
    · rw [Action.after, ran]
      exact after
    · intro fileId
      exact registered.stores_addEntry file
    · intro fileId
      rw [references_addEntry registered.fresh]
      exact Nat.le_add_right _ _

/-- The removal of a directory accounts. -/
theorem removeDirectory {fileId : Int} {name : Text} {fileList : List Int}
    (found : manager.findFile fileId = some ⟨name, .directory fileList⟩) :
    Accounted ((call (.removeFile fileId)).after manager) ∧
      manager.Accounts (.removeFile fileId) := by
  have ran := call_removeDirectory found
  have after := registered.eraseDirectory found
  refine ⟨?_, accounts_of_grows ran after.counted ?_ ?_⟩
  · rw [Action.after, ran]
    exact after
  · intro other stored
    obtain ⟨otherName, nodeId, uses, present⟩ := stores_iff.mp stored
    have differs : fileId ≠ other := by
      rintro rfl
      cases found.symm.trans present
    rw [stores_iff, findFile_eraseFile, if_neg differs]
    exact ⟨otherName, nodeId, uses, present⟩
  · intro other
    have same : manager.references other =
        (manager.eraseFile fileId).references other :=
      references_eraseFile found other
    exact Nat.le_of_eq same

/-- The removal of a general file accounts if it is the only one on its
storage file. -/
theorem removeSole {fileId storageFileId : Int} {name : Text}
    (general : manager.findFile fileId =
      some ⟨name, .generalFile storageFileId⟩)
    (sole : manager.references storageFileId = 1) :
    Accounted ((call (.removeFile fileId)).after manager) ∧
      manager.Accounts (.removeFile fileId) := by
  obtain ⟨storageName, nodeId, uses, storage⟩ :=
    stores_iff.mp (registered.counted.stored _ _ _ general)
  have ran := call_removeGeneral general storage
  have references := references_erased general storage
  have after := registered.eraseSole general storage sole
  have later : (call (.removeFile fileId)).after manager =
      (manager.eraseFile fileId).eraseFile storageFileId :=
    congrArg Prod.snd ran
  refine ⟨later.symm ▸ after, later.symm ▸ after.counted, ?_, ?_⟩
  · intro other stored
    obtain ⟨otherName, otherNode, otherUses, present⟩ :=
      stores_iff.mp stored
    have count := references other
    rw [later]
    by_cases own : storageFileId = other
    · subst own
      rw [if_pos rfl] at count
      constructor
      · intro lost
        omega
      · rintro - still
        rw [stores_iff, findFile_eraseFile, if_pos rfl] at still
        obtain ⟨_, _, _, impossible⟩ := still
        cases impossible
    · have differs : fileId ≠ other := by
        rintro rfl
        cases general.symm.trans present
      rw [if_neg own] at count
      constructor
      · intro lost
        apply absurd _ lost
        rw [stores_iff, findFile_eraseFile, if_neg own, findFile_eraseFile,
          if_neg differs]
        exact ⟨otherName, otherNode, otherUses, present⟩
      · rintro ⟨positive, zero⟩
        omega
  · intro fault thrown
    rw [ran] at thrown
    cases thrown

/-- The removal of a general file that is not the only one takes the storage
file from the others. -/
theorem sole_of_accounts {fileId storageFileId : Int} {name : Text}
    (general : manager.findFile fileId =
      some ⟨name, .generalFile storageFileId⟩)
    (accounts : manager.Accounts (.removeFile fileId)) :
    manager.references storageFileId = 1 := by
  obtain ⟨storageName, nodeId, uses, storage⟩ :=
    stores_iff.mp (registered.counted.stored _ _ _ general)
  have later : (call (.removeFile fileId)).after manager =
      (manager.eraseFile fileId).eraseFile storageFileId :=
    congrArg Prod.snd (call_removeGeneral general storage)
  have count := references_erased general storage storageFileId
  have counted := accounts.counted
  rw [later] at counted
  rw [if_pos rfl] at count
  by_contra shared
  have other : 0 < ((manager.eraseFile fileId).eraseFile
      storageFileId).references storageFileId := by
    have own := references_pos_iff.mpr ⟨fileId, name, general⟩
    omega
  obtain ⟨otherId, otherName, present⟩ := references_pos_iff.mp other
  obtain ⟨_, _, _, still⟩ :=
    stores_iff.mp (counted.stored otherId otherName storageFileId present)
  rw [findFile_eraseFile, if_pos rfl] at still
  cases still

/-- A call that removes no shared storage file accounts and keeps the files
counted. -/
theorem of_sole {event : FileCall} (sole : manager.RemovesSole event)
    (called : manager.Called event) :
    Accounted ((call event).after manager) ∧ manager.Accounts event := by
  cases event with
  | registerFile fileType fileName arg => exact registered.register called
  | removeFile fileId =>
      obtain ⟨⟨name, body⟩, found⟩ :
          ∃ file, manager.findFile fileId = some file := by
        rcases called with type | type <;>
          exact (Option.map_eq_some_iff.mp type).imp fun _ both => both.1
      cases body with
      | directory fileList => exact registered.removeDirectory found
      | generalFile storageFileId =>
          exact registered.removeSole found (sole name _ found)
      | storageFile nodeId useCounting =>
          rcases called with type | type <;>
            · rw [typeOf, found] at type
              cases type

/-- As long as files are counted, a call accounts exactly if it removes no
shared storage file. -/
theorem accounts_iff (event : FileCall) :
    manager.AccountsIfCalled event ↔ manager.RemovesSole event := by
  constructor
  · intro accounts
    cases event with
    | registerFile fileType fileName arg => exact trivial
    | removeFile fileId =>
        intro fileName storageFileId general
        apply registered.sole_of_accounts general
        apply accounts
        right
        rw [typeOf, general]
        rfl
  · intro sole called
    exact (registered.of_sole sole called).2

theorem step {event : FileCall} {next : SharingFileManager}
    (sole : manager.RemovesSole event)
    (stepped : fileMachine.step manager event = some next) :
    next.Accounted := by
  obtain ⟨called, after⟩ := Option.ite_none_right_eq_some.mp stepped
  cases after
  exact (registered.of_sole sole called).1

end Accounted

end SharingFileManager

/-- Every call of a run accounts exactly if no call removes a general file
whose storage file another one refers to. -/
theorem fileMachine_accounts_iff (events : List FileCall) :
    fileMachine.StepsMeet SharingFileManager.AccountsIfCalled events ↔
      fileMachine.StepsMeet SharingFileManager.RemovesSole events :=
  Machine.stepsMeet_iff SharingFileManager.Accounted
    SharingFileManager.Accounted.init
    (fun _ _ _ registered sole stepped => registered.step sole stepped)
    (fun _ event registered => registered.accounts_iff event) events

/-- One storage file and two general files on it. -/
def sharedCalls : List FileCall :=
  [.registerFile .storageFile ['s'] 1, .registerFile .generalFile ['a'] 1,
    .registerFile .generalFile ['b'] 1]

/-- The files after these calls. -/
def sharedFiles : SharingFileManager :=
  sharedCalls.foldl (fun manager event =>
    (SharingFileManager.call event).after manager) SharingFileManager.init

theorem not_accounts_always :
    ¬ fileMachine.StepsMeet SharingFileManager.AccountsIfCalled
      (sharedCalls ++ [.removeFile 2]) := by
  intro meets
  have reaches : fileMachine.Reaches sharedCalls sharedFiles := by
    decide
  have called : sharedFiles.Called (.removeFile 2) := by
    decide
  have counted := (meets.last reaches called).counted
  have other : (((SharingFileManager.call (.removeFile 2)).after
      sharedFiles).findFile 3) = some ⟨['b'], .generalFile 1⟩ := by
    decide
  have gone : ¬ ((SharingFileManager.call (.removeFile 2)).after
      sharedFiles).Stores 1 := by
    decide
  exact gone (counted.stored 3 ['b'] 1 other)

end ResourceServer
end Spaceless
