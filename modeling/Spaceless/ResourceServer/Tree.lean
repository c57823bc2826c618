import Mathlib.Data.Int.ConditionallyCompleteOrder
import Mathlib.Order.ConditionallyCompleteLattice.Basic
import Spaceless.Logic.Hierarchy
import Spaceless.ResourceServer.Placement

/-!
# The file table as a hierarchy

Directories and general files are the nodes of a hierarchy, whose roots are
the root directories of the groups; storage files lie beside it, one for each
general file.  The server changes the table in five ways only, and each of
them is an operation on the hierarchy.
-/

namespace Spaceless
namespace ResourceServer

open Logic Foundation Protocol

/-- The use count of a storage file. -/
def SharingFile.useCount (file : SharingFile) : Option Int :=
  match file.body with
  | .storageFile _ useCounting => some useCounting
  | _ => none

namespace SharingFileManager

/-- Directories and general files, under the directories that list them. -/
def hierarchy (files : SharingFileManager) : Hierarchy Int where
  live := fun fileId => ∃ file, files.findFile fileId = some file ∧
    file.place = none
  children := fun fileId => (files.observe SharingFile.list fileId).getD []

/-! ## Operations on the table -/

/-- The table with one more entry. -/
def addEntry (files : SharingFileManager) (file : SharingFile) :
    SharingFileManager :=
  { files with nextId := files.nextId + 1 }.setFile files.nextId file

/-- The table with a general file and its storage file. -/
def addUpload (files : SharingFileManager) (fileName : Text)
    (nodeId : Int) : SharingFileManager :=
  (files.addEntry
    { fileName := fileName, body := .storageFile nodeId 1 }).addEntry
      { fileName := fileName, body := .generalFile files.nextId }

/-- The table without an entry and its storage file. -/
def eraseEntry (files : SharingFileManager) (fileId : Int) :
    SharingFileManager :=
  match files.observe SharingFile.storage fileId with
  | some storageFileId => (files.eraseFile fileId).eraseFile storageFileId
  | none => files.eraseFile fileId

variable {files : SharingFileManager} {α : Type}
  {view : SharingFile → Option α}

@[simp] theorem addEntry_nextId (file : SharingFile) :
    (files.addEntry file).nextId = files.nextId + 1 := rfl

@[simp] theorem addUpload_nextId (fileName : Text) (nodeId : Int) :
    (files.addUpload fileName nodeId).nextId = files.nextId + 1 + 1 := rfl

theorem findFile_addEntry (file : SharingFile) (fileId : Int) :
    (files.addEntry file).findFile fileId =
      if files.nextId = fileId then some file else files.findFile fileId :=
  findFile_setFile _ _ _ _

theorem observe_addEntry (file : SharingFile) (fileId : Int) :
    (files.addEntry file).observe view fileId =
      if files.nextId = fileId then view file
      else files.observe view fileId :=
  observe_setFile _ _ _

theorem findFile_addUpload (fileName : Text) (nodeId fileId : Int) :
    (files.addUpload fileName nodeId).findFile fileId =
      if files.nextId + 1 = fileId then
        some { fileName := fileName, body := .generalFile files.nextId }
      else if files.nextId = fileId then
        some { fileName := fileName, body := .storageFile nodeId 1 }
      else files.findFile fileId := by
  rw [addUpload, findFile_addEntry, findFile_addEntry]
  rfl

theorem observe_addUpload (fileName : Text) (nodeId fileId : Int) :
    (files.addUpload fileName nodeId).observe view fileId =
      if files.nextId + 1 = fileId then
        view { fileName := fileName, body := .generalFile files.nextId }
      else if files.nextId = fileId then
        view { fileName := fileName, body := .storageFile nodeId 1 }
      else files.observe view fileId := by
  rw [observe, findFile_addUpload]
  split
  · rfl
  · split <;> rfl

theorem findFile_eraseEntry (fileId other : Int) :
    (files.eraseEntry fileId).findFile other =
      if fileId = other ∨
          files.observe SharingFile.storage fileId = some other then none
      else files.findFile other := by
  unfold eraseEntry
  cases files.observe SharingFile.storage fileId with
  | none => simp [findFile_eraseFile]
  | some storageFileId =>
      rw [findFile_eraseFile, findFile_eraseFile]
      by_cases storage : storageFileId = other <;> simp [storage]

theorem observe_eraseEntry (fileId other : Int) :
    (files.eraseEntry fileId).observe view other =
      if fileId = other ∨
          files.observe SharingFile.storage fileId = some other then none
      else files.observe view other := by
  rw [observe, findFile_eraseEntry]
  split <;> rfl

theorem observe_list_eq_some {fileId : Int} {fileList : List Int} :
    files.observe SharingFile.list fileId = some fileList ↔
      ∃ fileName, files.findFile fileId =
        some { fileName := fileName, body := .directory fileList } := by
  constructor
  · intro listed
    obtain ⟨⟨fileName, body⟩, found, shows⟩ := findFile_of_observe listed
    unfold SharingFile.list at shows
    split at shows
    · rename_i isDirectory
      cases shows
      cases isDirectory
      exact ⟨fileName, found⟩
    · cases shows
  · rintro ⟨fileName, found⟩
    exact observe_of_findFile found

section Directory

variable {directoryId : Int} {fileList : List Int}

/-- The entry of a directory after its list has changed. -/
theorem findFile_pushFile (fileId : Int) {fileName : Text}
    (found : files.findFile directoryId =
      some { fileName := fileName, body := .directory fileList })
    (other : Int) :
    (files.pushFile directoryId fileId).findFile other =
      if directoryId = other then
        some { fileName := fileName
               body := .directory (fileList ++ [fileId]) }
      else files.findFile other := by
  unfold pushFile
  simp only [found]
  exact findFile_setFile _ _ _ _

theorem list_pushFile (fileId : Int)
    (listed : files.observe SharingFile.list directoryId = some fileList) :
    (files.pushFile directoryId fileId).observe SharingFile.list
      directoryId = some (fileList ++ [fileId]) := by
  obtain ⟨fileName, found⟩ := observe_list_eq_some.mp listed
  rw [observe, findFile_pushFile fileId found, if_pos rfl]
  rfl

theorem findFile_removeFrom (fileId : Int) {fileName : Text}
    (found : files.findFile directoryId =
      some { fileName := fileName, body := .directory fileList })
    (other : Int) :
    (files.removeFrom directoryId fileId).findFile other =
      if directoryId = other then
        some { fileName := fileName
               body := .directory (fileList.filter (· ≠ fileId)) }
      else files.findFile other := by
  unfold removeFrom
  simp only [found]
  exact findFile_setFile _ _ _ _

/-- Views that show nothing of directories do not see their lists. -/
theorem observe_pushFile_of_blind (fileId : Int)
    (listed : files.observe SharingFile.list directoryId = some fileList)
    (blind : ∀ fileName fileList, view
      { fileName := fileName, body := .directory fileList } = none)
    (other : Int) :
    (files.pushFile directoryId fileId).observe view other =
      files.observe view other := by
  obtain ⟨fileName, found⟩ := observe_list_eq_some.mp listed
  unfold pushFile
  simp only [found]
  exact observe_setFile_of_eq found (by rw [blind, blind]) other

theorem observe_removeFrom_of_blind (fileId : Int)
    (listed : files.observe SharingFile.list directoryId = some fileList)
    (blind : ∀ fileName fileList, view
      { fileName := fileName, body := .directory fileList } = none)
    (other : Int) :
    (files.removeFrom directoryId fileId).observe view other =
      files.observe view other := by
  obtain ⟨fileName, found⟩ := observe_list_eq_some.mp listed
  unfold removeFrom
  simp only [found]
  exact observe_setFile_of_eq found (by rw [blind, blind]) other

end Directory

/-! ## The operations on the hierarchy -/

theorem children_of_list {directoryId : Int} {fileList : List Int}
    (listed : files.observe SharingFile.list directoryId = some fileList) :
    files.hierarchy.children directoryId = fileList := by
  simp only [hierarchy, listed, Option.getD_some]

theorem live_of_list {directoryId : Int} {fileList : List Int}
    (listed : files.observe SharingFile.list directoryId = some fileList) :
    files.hierarchy.live directoryId := by
  obtain ⟨fileName, found⟩ := observe_list_eq_some.mp listed
  exact ⟨_, found, rfl⟩

theorem live_of_storage {fileId storageFileId : Int}
    (leads : files.observe SharingFile.storage fileId =
      some storageFileId) : files.hierarchy.live fileId := by
  obtain ⟨⟨fileName, body⟩, found, shows⟩ := findFile_of_observe leads
  refine ⟨_, found, ?_⟩
  cases body with
  | directory fileList => rfl
  | generalFile other => rfl
  | storageFile nodeId useCounting => cases shows

theorem list_of_child {parent child : Int}
    (present : files.hierarchy.Child parent child) :
    ∃ fileList, files.observe SharingFile.list parent = some fileList ∧
      child ∈ fileList := by
  unfold Hierarchy.Child hierarchy at present
  cases listed : files.observe SharingFile.list parent with
  | none => simp [listed] at present
  | some fileList => exact ⟨fileList, rfl, by simpa [listed] using present⟩

theorem list_of_place {fileId : Int}
    (shows : files.observe SharingFile.place fileId ≠ none) :
    files.observe SharingFile.list fileId = none := by
  cases listed : files.observe SharingFile.list fileId with
  | none => rfl
  | some fileList =>
      obtain ⟨fileName, found⟩ := observe_list_eq_some.mp listed
      rw [observe_of_findFile found] at shows
      exact absurd rfl shows

theorem hierarchy_addDirectory
    (fresh : files.findFile files.nextId = none) (fileName : Text) :
    (files.addEntry { fileName := fileName, body := .directory [] }).hierarchy
      = files.hierarchy.plant files.nextId := by
  apply Hierarchy.ext <;> funext fileId
  · simp only [hierarchy, Hierarchy.plant, findFile_addEntry]
    by_cases new : files.nextId = fileId
    · simp [new, SharingFile.place]
    · simp [new, Ne.symm new]
  · simp only [hierarchy, Hierarchy.plant, observe_addEntry]
    split
    · rename_i new
      rw [← new, observe, fresh]
      rfl
    · rfl

theorem hierarchy_addUpload
    (fresh : ∀ fileId, files.nextId ≤ fileId →
      files.findFile fileId = none) (fileName : Text) (nodeId : Int) :
    (files.addUpload fileName nodeId).hierarchy =
      files.hierarchy.plant (files.nextId + 1) := by
  have storageFresh := fresh files.nextId (by omega)
  have generalFresh := fresh (files.nextId + 1) (by omega)
  have apart : files.nextId + 1 ≠ files.nextId := by omega
  apply Hierarchy.ext <;> funext fileId
  · simp only [hierarchy, Hierarchy.plant, findFile_addUpload]
    by_cases general : files.nextId + 1 = fileId
    · simp [general, SharingFile.place]
    · by_cases storage : files.nextId = fileId
      · subst storage
        simp [storageFresh, apart, apart.symm, SharingFile.place]
      · simp [general, storage, Ne.symm general]
  · simp only [hierarchy, Hierarchy.plant, observe, findFile_addUpload]
    by_cases general : files.nextId + 1 = fileId
    · subst general
      simp [generalFresh, SharingFile.list]
    · by_cases storage : files.nextId = fileId
      · subst storage
        simp [storageFresh, apart, SharingFile.list]
      · simp [general, storage]

theorem hierarchy_pushFile {directoryId : Int} {fileList : List Int}
    (listed : files.observe SharingFile.list directoryId = some fileList)
    (fileId : Int) :
    (files.pushFile directoryId fileId).hierarchy =
      files.hierarchy.adopt directoryId fileId := by
  obtain ⟨fileName, found⟩ := observe_list_eq_some.mp listed
  have children := children_of_list listed
  apply Hierarchy.ext <;> funext other
  · simp only [hierarchy, Hierarchy.adopt, findFile_pushFile fileId found]
    by_cases here : directoryId = other
    · subst here
      simp [found, SharingFile.place]
    · simp [here]
  · simp only [Hierarchy.adopt, children]
    simp only [hierarchy, observe, findFile_pushFile fileId found]
    by_cases here : directoryId = other
    · subst here
      simp [SharingFile.list]
    · simp [here, Function.update_of_ne (Ne.symm here)]

/-- Taking an entry with its storage file out of the table and out of the
list of its directory. -/
theorem hierarchy_removed {directoryId target : Int} {fileList : List Int}
    (listed : files.observe SharingFile.list directoryId = some fileList)
    (different : directoryId ≠ target)
    (storage : ∀ storageFileId,
      files.observe SharingFile.storage target = some storageFileId →
      files.observe SharingFile.place storageFileId ≠ none) :
    ((files.eraseEntry target).removeFrom directoryId target).hierarchy =
      files.hierarchy.prune directoryId target := by
  obtain ⟨fileName, found⟩ := observe_list_eq_some.mp listed
  have children := children_of_list listed
  have notStorage : files.observe SharingFile.storage target ≠
      some directoryId := by
    intro leads
    apply storage directoryId leads
    rw [observe_of_findFile found]
    rfl
  have still : (files.eraseEntry target).findFile directoryId =
      some { fileName := fileName, body := .directory fileList } := by
    rw [findFile_eraseEntry, if_neg, found]
    simp [different.symm, notStorage]
  apply Hierarchy.ext <;> funext other
  · simp only [hierarchy, Hierarchy.prune, findFile_removeFrom target still,
      findFile_eraseEntry]
    by_cases here : directoryId = other
    · subst here
      simp [found, different, SharingFile.place]
    · by_cases gone : target = other
      · simp [here, gone]
      · by_cases leads : files.observe SharingFile.storage target =
            some other
        · have hidden := storage other leads
          rw [if_neg here, if_pos (Or.inr leads)]
          refine propext (iff_of_false (by simp) ?_)
          rintro ⟨-, file, stored, shows⟩
          rw [observe_of_findFile stored] at hidden
          exact hidden shows
        · simp [here, gone, leads, Ne.symm gone]
  · simp only [Hierarchy.prune, children]
    simp only [hierarchy, observe, findFile_removeFrom target still]
    by_cases here : directoryId = other
    · subst here
      simp [different, SharingFile.list]
    · rw [if_neg here, ← observe, observe_eraseEntry]
      by_cases gone : other = target
      · simp [gone]
      · by_cases leads : files.observe SharingFile.storage target =
            some other
        · have hidden := list_of_place (storage other leads)
          rw [observe] at hidden
          simp [gone, leads, hidden, Ne.symm here]
        · rw [if_neg (not_or.mpr ⟨Ne.symm gone, leads⟩), if_neg gone,
            if_neg (Ne.symm here)]
          rfl

/-! ## Shape -/

/-- The hierarchy is arranged below root directories, and every general file
has a storage file of its own, which it alone uses. -/
structure Shape (roots : Int → Prop) (files : SharingFileManager) :
    Prop where
  owned : files.Owned fun _ => 0
  arranged : files.hierarchy.Arranged roots
  rootLists : ∀ root, roots root →
    files.observe SharingFile.list root ≠ none
  stored : ∀ fileId storageFileId,
    files.observe SharingFile.storage fileId = some storageFileId →
    files.observe SharingFile.useCount storageFileId = some 1
  separate : ∀ first second storageFileId,
    files.observe SharingFile.storage first = some storageFileId →
    files.observe SharingFile.storage second = some storageFileId →
    first = second

/-- A directory gets a subdirectory under a name that it does not list. -/
inductive MakesDirectory (files : SharingFileManager) :
    SharingFileManager → Prop
  | under {parentId fileList} (dirName : Text)
      (listed : files.observe SharingFile.list parentId = some fileList)
      (absent : files.findFileIn fileList dirName = invalidId) :
      MakesDirectory files
        ((files.addEntry { fileName := dirName, body := .directory [] })
          |>.pushFile parentId files.nextId)

/-- One change of the table: a new root directory, a new subdirectory, an
upload into a directory or without a place in one, or a removal. -/
inductive TreeChange (files : SharingFileManager) :
    SharingFileManager → Prop
  | root (fileName : Text) :
      TreeChange files
        (files.addEntry { fileName := fileName, body := .directory [] })
  | directory {later} (makes : MakesDirectory files later) :
      TreeChange files later
  | upload {parentId fileList} (fileName : Text) (nodeId : Int)
      (listed : files.observe SharingFile.list parentId = some fileList) :
      TreeChange files ((files.addUpload fileName nodeId).pushFile parentId
        (files.nextId + 1))
  | loose (fileName : Text) (nodeId : Int) :
      TreeChange files (files.addUpload fileName nodeId)
  | removed {parentId target fileList}
      (listed : files.observe SharingFile.list parentId = some fileList)
      (present : target ∈ fileList) :
      TreeChange files ((files.eraseEntry target).removeFrom parentId target)

theorem insertFile_eq (fresh : files.findFile files.nextId = none)
    (file : SharingFile) :
    insertFile file files = (.ok files.nextId, files.addEntry file) := by
  simp only [insertFile, fresh]
  rfl

theorem Owned.not_found_of_le {owner : Int → Int}
    (owned : files.Owned owner) {fileId : Int}
    (above : files.nextId ≤ fileId) : files.findFile fileId = none := by
  cases found : files.findFile fileId with
  | none => rfl
  | some file =>
      have bounds := owned.bounds fileId file found
      omega

theorem Owned.addEntry (owned : files.Owned fun _ => 0)
    (file : SharingFile) (references : ∀ reference ∈ file.body.references,
      reference < files.nextId) :
    (files.addEntry file).Owned fun _ => 0 := by
  have inside := ((Inside.refl owned).insertFile_ensures (fun _ _ => rfl)
    file fun reference mentioned => ⟨references reference mentioned, rfl⟩)
  exact (inside.of_ok (insertFile_eq owned.not_found_nextId file)).1.owned

theorem Owned.addUpload (owned : files.Owned fun _ => 0)
    (fileName : Text) (nodeId : Int) :
    (files.addUpload fileName nodeId).Owned fun _ => 0 := by
  refine (owned.addEntry _ (by simp [FileBody.references])).addEntry _ ?_
  simp only [FileBody.references, List.mem_singleton, addEntry_nextId]
  rintro reference rfl
  omega

namespace Shape

variable {roots : Int → Prop} {later : SharingFileManager}

theorem fresh (shape : Shape roots files) (fileId : Int)
    (above : files.nextId ≤ fileId) : files.findFile fileId = none :=
  shape.owned.not_found_of_le above

/-- No id that was not handed out is mentioned. -/
theorem unlisted (shape : Shape roots files) {parent fileId : Int}
    (above : files.nextId ≤ fileId) :
    ¬files.hierarchy.Child parent fileId := by
  intro listed
  obtain ⟨-, file, found, -⟩ := shape.arranged.live parent fileId listed
  rw [shape.fresh fileId above] at found
  cases found

theorem notRoot (shape : Shape roots files) {fileId : Int}
    (above : files.nextId ≤ fileId) : ¬roots fileId := by
  intro isRoot
  apply shape.rootLists fileId isRoot
  rw [observe, shape.fresh fileId above]
  rfl

/-- A directory with other entries, all of them known, keeps the rest. -/
theorem pushFile (shape : Shape roots files) {parentId fileId : Int}
    {fileList : List Int}
    (listed : files.observe SharingFile.list parentId = some fileList)
    (live : files.hierarchy.live fileId) (below : fileId < files.nextId)
    (free : ∀ parent, ¬files.hierarchy.Child parent fileId)
    (notRoot : ¬roots fileId) (above : parentId < fileId) :
    Shape roots (files.pushFile parentId fileId) := by
  obtain ⟨fileName, found⟩ := observe_list_eq_some.mp listed
  have storage : ∀ other, (files.pushFile parentId fileId).observe
      SharingFile.storage other = files.observe SharingFile.storage other :=
    observe_pushFile_of_blind fileId listed fun _ _ => rfl
  have useCount : ∀ other, (files.pushFile parentId fileId).observe
      SharingFile.useCount other = files.observe SharingFile.useCount other :=
    observe_pushFile_of_blind fileId listed fun _ _ => rfl
  refine ⟨((Inside.refl shape.owned).pushFile rfl below rfl).owned, ?_, ?_,
    ?_, ?_⟩
  · rw [hierarchy_pushFile listed]
    exact shape.arranged.adopt (live_of_list listed) live free notRoot above
  · intro root isRoot
    rw [observe, findFile_pushFile fileId found]
    split
    · simp [SharingFile.list]
    · exact shape.rootLists root isRoot
  · intro other storageFileId
    rw [storage, useCount]
    exact shape.stored other storageFileId
  · intro first second storageFileId
    rw [storage, storage]
    exact shape.separate first second storageFileId

theorem addDirectory (shape : Shape roots files) (fileName : Text) :
    Shape roots (files.addEntry
      { fileName := fileName, body := .directory [] }) := by
  have hierarchy := hierarchy_addDirectory
    (shape.fresh files.nextId (Int.le_refl _)) fileName
  refine ⟨shape.owned.addEntry _ (by simp [FileBody.references]),
    hierarchy ▸ shape.arranged.plant files.nextId, ?_, ?_, ?_⟩
  · intro root isRoot
    rw [observe_addEntry]
    split
    · simp [SharingFile.list]
    · exact shape.rootLists root isRoot
  · intro fileId storageFileId leads
    rw [observe_addEntry] at leads
    split at leads
    · cases leads
    · have counted := shape.stored fileId storageFileId leads
      rw [observe_addEntry, if_neg]
      · exact counted
      · rintro rfl
        rw [observe, shape.fresh _ (Int.le_refl _)] at counted
        cases counted
  · intro first second storageFileId firstLeads secondLeads
    rw [observe_addEntry] at firstLeads secondLeads
    split at firstLeads
    · cases firstLeads
    · split at secondLeads
      · cases secondLeads
      · exact shape.separate first second storageFileId firstLeads
          secondLeads

theorem addUpload (shape : Shape roots files) (fileName : Text)
    (nodeId : Int) : Shape roots (files.addUpload fileName nodeId) := by
  have known {fileId storageFileId : Int}
      (leads : files.observe SharingFile.storage fileId =
        some storageFileId) : storageFileId < files.nextId := by
    obtain ⟨file, found, _⟩ :=
      findFile_of_observe (shape.stored fileId storageFileId leads)
    exact (shape.owned.bounds storageFileId file found).2
  have storage {fileId storageFileId : Int}
      (leads : (files.addUpload fileName nodeId).observe SharingFile.storage
        fileId = some storageFileId) :
      fileId = files.nextId + 1 ∧ storageFileId = files.nextId ∨
        files.observe SharingFile.storage fileId = some storageFileId := by
    rw [observe_addUpload] at leads
    split at leads
    · rename_i general
      cases leads
      exact Or.inl ⟨general.symm, rfl⟩
    · split at leads
      · cases leads
      · exact Or.inr leads
  refine ⟨shape.owned.addUpload fileName nodeId, ?_, ?_, ?_, ?_⟩
  · rw [hierarchy_addUpload shape.fresh]
    exact shape.arranged.plant _
  · intro root isRoot
    have below : root < files.nextId :=
      Int.not_le.mp fun above => shape.notRoot above isRoot
    rw [observe_addUpload, if_neg (by omega), if_neg (by omega)]
    exact shape.rootLists root isRoot
  · intro fileId storageFileId leads
    rw [observe_addUpload]
    rcases storage leads with ⟨-, rfl⟩ | old
    · rw [if_neg (by omega), if_pos rfl]
      rfl
    · have below := known old
      rw [if_neg (by omega), if_neg (by omega)]
      exact shape.stored fileId storageFileId old
  · intro first second storageFileId firstLeads secondLeads
    rcases storage firstLeads with ⟨rfl, rfl⟩ | firstOld <;>
      rcases storage secondLeads with ⟨rfl, same⟩ | secondOld
    · rfl
    · exact absurd (known secondOld) (by omega)
    · exact absurd (known firstOld) (by omega)
    · exact shape.separate first second storageFileId firstOld secondOld

/-- The storage file of a general file is one. -/
theorem place_of_storage (shape : Shape roots files)
    {fileId storageFileId : Int}
    (leads : files.observe SharingFile.storage fileId =
      some storageFileId) :
    files.observe SharingFile.place storageFileId ≠ none := by
  obtain ⟨file, found, counts⟩ :=
    findFile_of_observe (shape.stored fileId storageFileId leads)
  rw [observe_of_findFile found]
  obtain ⟨fileName, body⟩ := file
  cases body with
  | directory fileList => cases counts
  | generalFile storageFileId => cases counts
  | storageFile nodeId useCounting => exact Option.some_ne_none _

theorem eraseEntry_owned (owned : files.Owned fun _ => 0) (target : Int) :
    (files.eraseEntry target).Owned fun _ => 0 := by
  have erased : Inside (fun _ => 0) 0 files (files.eraseFile target) :=
    (Inside.refl owned).eraseFile rfl
  unfold eraseEntry
  split
  · exact (erased.eraseFile rfl).owned
  · exact erased.owned

theorem findFile_eraseEntry_of_live (shape : Shape roots files)
    {fileId target : Int} (live : files.hierarchy.live fileId)
    (kept : fileId ≠ target) :
    (files.eraseEntry target).findFile fileId = files.findFile fileId := by
  rw [findFile_eraseEntry, if_neg]
  rintro (rfl | leads)
  · exact kept rfl
  · obtain ⟨file, found, place⟩ := live
    have shows := shape.place_of_storage leads
    rw [observe_of_findFile found] at shows
    exact shows place

theorem list_eraseEntry (shape : Shape roots files)
    {fileId target : Int} {entries : List Int}
    (listed : files.observe SharingFile.list fileId = some entries)
    (kept : fileId ≠ target) :
    (files.eraseEntry target).observe SharingFile.list fileId =
      some entries := by
  rw [observe, shape.findFile_eraseEntry_of_live (live_of_list listed) kept]
  exact listed

theorem storage_eraseEntry (shape : Shape roots files)
    {fileId target storageFileId : Int}
    (leads : files.observe SharingFile.storage fileId = some storageFileId)
    (kept : fileId ≠ target) :
    (files.eraseEntry target).observe SharingFile.storage fileId =
      some storageFileId := by
  rw [observe, shape.findFile_eraseEntry_of_live (live_of_storage leads) kept]
  exact leads

theorem removed (shape : Shape roots files) {parentId target : Int}
    {fileList : List Int}
    (listed : files.observe SharingFile.list parentId = some fileList)
    (present : target ∈ fileList) :
    Shape roots ((files.eraseEntry target).removeFrom parentId target) := by
  have child : files.hierarchy.Child parentId target := by
    rw [Hierarchy.Child, children_of_list listed]
    exact present
  have different := shape.arranged.ne child
  have hidden (storageFileId : Int)
      (leads : files.observe SharingFile.storage target =
        some storageFileId) :
      files.observe SharingFile.place storageFileId ≠ none :=
    shape.place_of_storage leads
  have still := shape.list_eraseEntry listed different
  have storage : ∀ other,
      ((files.eraseEntry target).removeFrom parentId target).observe
        SharingFile.storage other =
      (files.eraseEntry target).observe SharingFile.storage other :=
    observe_removeFrom_of_blind target still fun _ _ => rfl
  have useCount : ∀ other,
      ((files.eraseEntry target).removeFrom parentId target).observe
        SharingFile.useCount other =
      (files.eraseEntry target).observe SharingFile.useCount other :=
    observe_removeFrom_of_blind target still fun _ _ => rfl
  have keptStorage {fileId storageFileId : Int}
      (leads : (files.eraseEntry target).observe SharingFile.storage fileId =
        some storageFileId) :
      target ≠ fileId ∧
        files.observe SharingFile.storage fileId = some storageFileId := by
    rw [observe_eraseEntry] at leads
    split at leads
    · cases leads
    · rename_i kept
      exact ⟨fun gone => kept (Or.inl gone), leads⟩
  refine ⟨((Inside.refl (eraseEntry_owned shape.owned target)).removeFrom
    rfl target).owned, ?_, ?_, ?_, ?_⟩
  · rw [hierarchy_removed listed different hidden]
    exact shape.arranged.prune child
  · intro root isRoot
    obtain ⟨entries, rootListed⟩ :=
      Option.ne_none_iff_exists'.mp (shape.rootLists root isRoot)
    have rootKept : root ≠ target := by
      rintro rfl
      exact shape.arranged.notRoot parentId root child isRoot
    obtain ⟨fileName, found⟩ := observe_list_eq_some.mp still
    rw [observe, findFile_removeFrom target found]
    split
    · simp [SharingFile.list]
    · rw [← observe, shape.list_eraseEntry rootListed rootKept]
      simp
  · intro fileId storageFileId leads
    rw [storage] at leads
    obtain ⟨kept, leads⟩ := keptStorage leads
    have counted := shape.stored fileId storageFileId leads
    rw [useCount, observe_eraseEntry, if_neg]
    · exact counted
    · rintro (rfl | gone)
      · obtain ⟨-, file, found, place⟩ := shape.arranged.live _ _ child
        have shows := shape.place_of_storage leads
        rw [observe_of_findFile found] at shows
        exact shows place
      · exact kept (shape.separate target fileId storageFileId gone leads)
  · intro first second storageFileId firstLeads secondLeads
    rw [storage] at firstLeads secondLeads
    exact shape.separate first second storageFileId
      (keptStorage firstLeads).2 (keptStorage secondLeads).2

/-- An entry is known before every new id. -/
theorem lt_of_observe (shape : Shape roots files) {fileId : Int} {value : α}
    (shows : files.observe view fileId = some value) :
    fileId < files.nextId := by
  obtain ⟨file, found, -⟩ := findFile_of_observe shows
  exact (shape.owned.bounds fileId file found).2

/-- New entries leave what is shown of the others. -/
theorem observe_addEntry_of_some (shape : Shape roots files)
    (file : SharingFile) {fileId : Int} {value : α}
    (shows : files.observe view fileId = some value) :
    (files.addEntry file).observe view fileId = some value := by
  have known := shape.lt_of_observe shows
  rw [observe_addEntry, if_neg (by omega)]
  exact shows

theorem observe_addUpload_of_some (shape : Shape roots files)
    (fileName : Text) (nodeId : Int) {fileId : Int} {value : α}
    (shows : files.observe view fileId = some value) :
    (files.addUpload fileName nodeId).observe view fileId =
      some value := by
  have known := shape.lt_of_observe shows
  rw [observe_addUpload, if_neg (by omega), if_neg (by omega)]
  exact shows

theorem makesDirectory (shape : Shape roots files)
    (makes : MakesDirectory files later) : Shape roots later := by
  obtain ⟨dirName, listed, absent⟩ := makes
  have known := shape.lt_of_observe listed
  have hierarchy := hierarchy_addDirectory
    (shape.fresh files.nextId (Int.le_refl _)) dirName
  refine (shape.addDirectory dirName).pushFile
    (shape.observe_addEntry_of_some _ listed) ?_ ?_ ?_ ?_ known
  · rw [hierarchy]
    exact Or.inl rfl
  · rw [addEntry_nextId]
    omega
  · rw [hierarchy]
    exact fun parent => shape.unlisted (Int.le_refl _)
  · exact shape.notRoot (Int.le_refl _)

theorem change (shape : Shape roots files)
    (change : TreeChange files later) : Shape roots later := by
  cases change with
  | root fileName => exact shape.addDirectory fileName
  | directory makes => exact shape.makesDirectory makes
  | loose fileName nodeId => exact shape.addUpload fileName nodeId
  | removed listed present => exact shape.removed listed present
  | upload fileName nodeId listed =>
      have known := shape.lt_of_observe listed
      have hierarchy := hierarchy_addUpload shape.fresh fileName nodeId
      refine (shape.addUpload fileName nodeId).pushFile
        (shape.observe_addUpload_of_some fileName nodeId listed) ?_ ?_ ?_ ?_ ?_
      · rw [hierarchy]
        exact Or.inl rfl
      · rw [addUpload_nextId]
        omega
      · rw [hierarchy]
        exact fun parent => shape.unlisted (by omega)
      · exact shape.notRoot (by omega)
      · omega

end Shape

end SharingFileManager

end ResourceServer
end Spaceless
