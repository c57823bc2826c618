import Spaceless.ResourceServer.Group

/-!
# Labelled file trees

All groups keep their files in one table.  A labelling gives every id the
group it belongs to; in an owned table the ids that an entry refers to have
the label of the entry, so that a walk from a root stays inside one label.
The operations of one group change only entries of its label, as long as
the ids still to be handed out have this label too.
-/

namespace Spaceless
namespace ResourceServer

open Logic Foundation

/-- The ids that an entry refers to. -/
def FileBody.references : FileBody → List Int
  | .directory fileList => fileList
  | .generalFile storageFileId => [storageFileId]
  | .storageFile _ _ => []

namespace SharingFileManager

@[simp] theorem findFile_setFile_self (files : SharingFileManager)
    (fileId : Int) (file : SharingFile) :
    (files.setFile fileId file).findFile fileId = some file := by
  simp [setFile, findFile]

theorem findFile_setFile_of_ne (files : SharingFileManager)
    {fileId other : Int} (file : SharingFile) (different : fileId ≠ other) :
    (files.setFile fileId file).findFile other = files.findFile other :=
  Table.lookup_insert_of_ne _ _ different

theorem findFile_setFile (files : SharingFileManager)
    (fileId other : Int) (file : SharingFile) :
    (files.setFile fileId file).findFile other =
      if fileId = other then some file else files.findFile other :=
  Table.lookup_insert _ _ _ _

theorem findFile_eraseFile (files : SharingFileManager)
    (fileId other : Int) :
    (files.eraseFile fileId).findFile other =
      if fileId = other then none else files.findFile other :=
  Table.lookup_erase _ _ _

theorem getFile_eq_ok {files : SharingFileManager} {fileId : Int}
    {file : SharingFile} :
    files.getFile fileId = .ok file ↔ files.findFile fileId = some file := by
  unfold getFile
  cases files.findFile fileId <;> simp

@[simp] theorem setFile_nextId (files : SharingFileManager)
    (fileId : Int) (file : SharingFile) :
    (files.setFile fileId file).nextId = files.nextId := rfl

@[simp] theorem eraseFile_nextId (files : SharingFileManager)
    (fileId : Int) : (files.eraseFile fileId).nextId = files.nextId := rfl

/-- Ids are positive and below the next id, and what an entry refers to has
its label. -/
structure Owned (owner : Int → Int) (files : SharingFileManager) :
    Prop where
  positive : 0 < files.nextId
  bounds : ∀ fileId file, files.findFile fileId = some file →
    0 < fileId ∧ fileId < files.nextId
  references : ∀ fileId file, files.findFile fileId = some file →
    ∀ reference ∈ file.body.references,
      reference < files.nextId ∧ owner reference = owner fileId

theorem owned_init (owner : Int → Int) : init.Owned owner := by
  refine ⟨by decide, ?_, ?_⟩ <;>
    intro fileId file found <;> simp [init, findFile] at found

/-- Only the labels of ids that were handed out matter. -/
theorem Owned.relabel {owner other : Int → Int}
    {files : SharingFileManager} (owned : files.Owned owner)
    (agree : ∀ fileId, fileId < files.nextId →
      other fileId = owner fileId) : files.Owned other := by
  refine ⟨owned.positive, owned.bounds, ?_⟩
  intro fileId file found reference mentioned
  obtain ⟨below, same⟩ := owned.references fileId file found reference
    mentioned
  refine ⟨below, ?_⟩
  rw [agree reference below, agree fileId (owned.bounds _ _ found).2, same]

theorem Owned.not_found_invalidId {owner : Int → Int}
    {files : SharingFileManager} (owned : files.Owned owner) :
    files.findFile invalidId = none := by
  cases found : files.findFile invalidId with
  | none => rfl
  | some file => exact absurd (owned.bounds _ _ found).1 (by decide)

theorem Owned.not_found_nextId {owner : Int → Int}
    {files : SharingFileManager} (owned : files.Owned owner) :
    files.findFile files.nextId = none := by
  cases found : files.findFile files.nextId with
  | none => rfl
  | some file => exact absurd (owned.bounds _ _ found).2 (by omega)

/-! ## Walks -/

theorem findFileIn_congr {files changed : SharingFileManager}
    {fileList : List Int}
    (agree : ∀ fileId ∈ fileList,
      changed.findFile fileId = files.findFile fileId)
    (filename : Text) :
    changed.findFileIn fileList filename =
      files.findFileIn fileList filename := by
  unfold findFileIn
  congr 1
  induction fileList with
  | nil => rfl
  | cons fileId rest inductionHypothesis =>
      have restSame := inductionHypothesis fun other present =>
        agree other (List.mem_cons_of_mem _ present)
      rw [List.find?_cons, List.find?_cons, restSame,
        agree fileId List.mem_cons_self]

theorem findFileIn_mem {files : SharingFileManager} {fileList : List Int}
    {filename : Text}
    (valid : files.findFileIn fileList filename ≠ invalidId) :
    files.findFileIn fileList filename ∈ fileList := by
  unfold findFileIn at valid ⊢
  generalize search : List.find? _ fileList = result at valid ⊢
  cases result with
  | none => exact absurd rfl valid
  | some fileId => exact List.mem_of_find?_eq_some search

/-- The entries of a directory have its label. -/
theorem Owned.child {owner : Int → Int} {files : SharingFileManager}
    (owned : files.Owned owner) {dirId child : Int} {file : SharingFile}
    {fileList : List Int} (stored : files.getFile dirId = .ok file)
    (body : file.body = .directory fileList) (present : child ∈ fileList) :
    child < files.nextId ∧ owner child = owner dirId := by
  apply owned.references dirId file (getFile_eq_ok.mp stored)
  rw [body]
  exact present

/-- What is found in a directory has its label. -/
theorem Owned.findFileIn {owner : Int → Int} {files : SharingFileManager}
    (owned : files.Owned owner) {dirId : Int} {file : SharingFile}
    {fileList : List Int} (stored : files.getFile dirId = .ok file)
    (body : file.body = .directory fileList) {filename : Text}
    (valid : files.findFileIn fileList filename ≠ invalidId) :
    owner (files.findFileIn fileList filename) = owner dirId :=
  (owned.child stored body (findFileIn_mem valid)).2

end SharingFileManager

open SharingFileManager SharingGroup

section Walks

variable {owner : Int → Int} {files : SharingFileManager}

/-- A walk only reads entries of the label it starts in. -/
theorem getFileIdFrom_congr {changed : SharingFileManager} {label : Int}
    (owned : files.Owned owner)
    (agree : ∀ fileId, owner fileId = label →
      changed.findFile fileId = files.findFile fileId)
    {parentId : Int} (inside : owner parentId = label)
    (path : List Text) :
    getFileIdFrom changed parentId path =
      getFileIdFrom files parentId path := by
  induction path generalizing parentId with
  | nil => rfl
  | cons dirName rest inductionHypothesis =>
      have same : changed.getFile parentId = files.getFile parentId := by
        unfold getFile
        rw [agree parentId inside]
      rw [getFileIdFrom, getFileIdFrom, same]
      cases got : files.getFile parentId with
      | error fault => rfl
      | ok parent =>
          cases body : parent.body with
          | generalFile storageFileId => simp only [body]
          | storageFile nodeId useCounting => simp only [body]
          | directory fileList =>
              have inList : ∀ fileId ∈ fileList,
                  changed.findFile fileId = files.findFile fileId := by
                intro fileId present
                apply agree
                rw [(owned.child got body present).2, inside]
              simp only [body, findFileIn_congr inList]
              split
              · rfl
              · rename_i valid
                apply inductionHypothesis
                rw [owned.findFileIn got body valid, inside]

/-- A walk ends at the invalid id or at an id of its label. -/
theorem getFileIdFrom_owner {parentId fileId : Int} {path : List Text}
    (owned : files.Owned owner)
    (resolved : getFileIdFrom files parentId path = .ok fileId) :
    fileId = invalidId ∨ owner fileId = owner parentId := by
  induction path generalizing parentId with
  | nil =>
      cases resolved
      exact Or.inr rfl
  | cons dirName rest inductionHypothesis =>
      rw [getFileIdFrom] at resolved
      cases got : files.getFile parentId with
      | error fault => simp [got] at resolved
      | ok parent =>
          cases body : parent.body with
          | generalFile storageFileId =>
              simp only [got, body] at resolved
              cases resolved
              exact Or.inl rfl
          | storageFile nodeId useCounting =>
              simp only [got, body] at resolved
              cases resolved
              exact Or.inl rfl
          | directory fileList =>
              simp only [got, body] at resolved
              split at resolved
              · cases resolved
                exact Or.inl rfl
              · rename_i valid
                rw [← owned.findFileIn got body valid]
                exact inductionHypothesis resolved

/-- The walk of `remove_path` ends at ids of its label. -/
theorem walkToRemove_owner {label previousId parentId : Int}
    {found : Int × Int} {path : List Text}
    (owned : files.Owned owner)
    (previousInside : owner previousId = label)
    (inside : owner parentId = label)
    (walked : walkToRemove files previousId parentId path = .ok found) :
    owner found.1 = label ∧ owner found.2 = label := by
  induction path generalizing previousId parentId with
  | nil =>
      cases walked
      exact ⟨previousInside, inside⟩
  | cons dirName rest inductionHypothesis =>
      rw [walkToRemove] at walked
      cases got : files.getFile parentId with
      | error fault => simp [got] at walked
      | ok parent =>
          cases body : parent.body with
          | generalFile storageFileId => simp [got, body] at walked
          | storageFile nodeId useCounting => simp [got, body] at walked
          | directory fileList =>
              simp only [got, body] at walked
              split at walked
              · cases walked
              · rename_i valid
                refine inductionHypothesis inside ?_ walked
                rw [owned.findFileIn got body valid, inside]

end Walks

/-! ## Operations inside one label -/

/-- The table comes from the start by changes of entries of the label. -/
structure Inside (owner : Int → Int) (label : Int)
    (start files : SharingFileManager) : Prop where
  owned : files.Owned owner
  grows : start.nextId ≤ files.nextId
  outside : ∀ fileId, owner fileId ≠ label →
    files.findFile fileId = start.findFile fileId

namespace Inside

variable {owner : Int → Int} {label : Int}
  {start files : SharingFileManager}

theorem refl (owned : start.Owned owner) :
    Inside owner label start start :=
  ⟨owned, Int.le_refl _, fun _ _ => rfl⟩

theorem ne_of_label {fileId other : Int} (labelled : owner fileId = label)
    (different : owner other ≠ label) : fileId ≠ other := by
  rintro rfl
  exact different labelled

/-- Changing an entry of the label that refers to ids of the label. -/
theorem setFile (inside : Inside owner label start files)
    {fileId : Int} {old file : SharingFile}
    (stored : files.findFile fileId = some old)
    (labelled : owner fileId = label)
    (references : ∀ reference ∈ file.body.references,
      reference < files.nextId ∧ owner reference = label) :
    Inside owner label start (files.setFile fileId file) := by
  refine ⟨⟨inside.owned.positive, ?_, ?_⟩, inside.grows, ?_⟩
  · intro other entry found
    rw [findFile_setFile] at found
    split at found
    · rename_i same
      exact same ▸ inside.owned.bounds fileId old stored
    · exact inside.owned.bounds other entry found
  · intro other entry found
    rw [findFile_setFile] at found
    split at found
    · rename_i same
      cases found
      rw [← same, labelled]
      exact references
    · exact inside.owned.references other entry found
  · intro other different
    rw [findFile_setFile_of_ne _ _ (ne_of_label labelled different)]
    exact inside.outside other different

theorem eraseFile (inside : Inside owner label start files)
    {fileId : Int} (labelled : owner fileId = label) :
    Inside owner label start (files.eraseFile fileId) := by
  refine ⟨⟨inside.owned.positive, ?_, ?_⟩, inside.grows, ?_⟩
  · intro other entry found
    exact inside.owned.bounds other entry (Table.lookup_of_lookup_erase found)
  · intro other entry found
    exact inside.owned.references other entry
      (Table.lookup_of_lookup_erase found)
  · intro other different
    rw [findFile_eraseFile, if_neg (ne_of_label labelled different)]
    exact inside.outside other different

/-- The entry that `register_file` adds; its id was free. -/
theorem insertFile_ensures (inside : Inside owner label start files)
    (fresh : ∀ fileId, start.nextId ≤ fileId → owner fileId = label)
    (file : SharingFile)
    (references : ∀ reference ∈ file.body.references,
      reference < files.nextId ∧ owner reference = label) :
    Action.Ensures (SharingFileManager.insertFile file) files
      (fun fileId later => Inside owner label start later ∧
        fileId = files.nextId ∧ later.nextId = files.nextId + 1 ∧
        owner fileId = label)
      (fun _ later => Inside owner label start later) := by
  have labelled : owner files.nextId = label := fresh _ inside.grows
  simp only [Action.Ensures, SharingFileManager.insertFile,
    inside.owned.not_found_nextId]
  refine ⟨⟨⟨?_, ?_, ?_⟩, ?_, ?_⟩, trivial, rfl, labelled⟩
  · have positive := inside.owned.positive
    simp only [setFile_nextId]
    omega
  · intro fileId entry found
    have positive := inside.owned.positive
    rw [findFile_setFile] at found
    simp only [setFile_nextId]
    split at found
    · omega
    · have bounds := inside.owned.bounds fileId entry found
      omega
  · intro fileId entry found
    rw [findFile_setFile] at found
    simp only [setFile_nextId]
    split at found
    · rename_i same
      cases found
      rw [← same, labelled]
      intro reference mentioned
      obtain ⟨below, sameLabel⟩ := references reference mentioned
      exact ⟨by omega, sameLabel⟩
    · intro reference mentioned
      obtain ⟨below, sameLabel⟩ :=
        inside.owned.references fileId entry found reference mentioned
      exact ⟨by omega, sameLabel⟩
  · have grows := inside.grows
    simp only [setFile_nextId]
    omega
  · intro fileId different
    rw [findFile_setFile_of_ne _ _ (ne_of_label labelled different)]
    exact inside.outside fileId different

/-- Taking a reference on a storage file. -/
theorem useStorageFile_ensures (inside : Inside owner label start files)
    {storageFileId : Int} (labelled : owner storageFileId = label) :
    Action.Ensures (SharingFileManager.useStorageFile storageFileId) files
      (fun _ later => Inside owner label start later ∧
        later.nextId = files.nextId)
      (fun _ later => Inside owner label start later) := by
  unfold Action.Ensures SharingFileManager.useStorageFile
  cases got : files.getFile storageFileId with
  | error fault => exact inside
  | ok file =>
      cases body : file.body with
      | directory fileList => simpa only [body] using inside
      | generalFile other => simpa only [body] using inside
      | storageFile nodeId useCounting =>
          simp only [body]
          refine ⟨inside.setFile (getFile_eq_ok.mp got) labelled ?_, rfl⟩
          simp [FileBody.references]

/-- `register_file` for the group of the label. -/
theorem registerFile_ensures (inside : Inside owner label start files)
    (fresh : ∀ fileId, start.nextId ≤ fileId → owner fileId = label)
    (fileType : FileType) (fileName : Text) (arg : Int)
    (argument : fileType = .generalFile →
      arg < files.nextId ∧ owner arg = label) :
    Action.Ensures (SharingFileManager.registerFile fileType fileName arg)
      files
      (fun fileId later => Inside owner label start later ∧
        fileId = files.nextId ∧ later.nextId = files.nextId + 1 ∧
        owner fileId = label)
      (fun _ later => Inside owner label start later) := by
  cases fileType with
  | directory =>
      exact inside.insertFile_ensures fresh _ (by simp [FileBody.references])
  | storageFile =>
      exact inside.insertFile_ensures fresh _ (by simp [FileBody.references])
  | generalFile =>
      obtain ⟨below, labelled⟩ := argument rfl
      simp only [SharingFileManager.registerFile, Action.ensures_bind]
      refine (inside.useStorageFile_ensures labelled).mono ?_
        fun _ _ failed => failed
      rintro _ used ⟨usedInside, sameNext⟩
      rw [← sameNext]
      refine usedInside.insertFile_ensures fresh _ ?_
      simp [FileBody.references, sameNext, below, labelled]

/-- Adding an entry of the label to a directory of the label. -/
theorem pushFile (inside : Inside owner label start files)
    {directoryId fileId : Int} (directory : owner directoryId = label)
    (below : fileId < files.nextId) (labelled : owner fileId = label) :
    Inside owner label start (files.pushFile directoryId fileId) := by
  unfold SharingFileManager.pushFile
  cases stored : files.findFile directoryId with
  | none => exact inside
  | some file =>
      cases body : file.body with
      | generalFile other => simpa only [body] using inside
      | storageFile nodeId useCounting => simpa only [body] using inside
      | directory fileList =>
          simp only [body]
          refine inside.setFile stored directory ?_
          intro reference mentioned
          rcases List.mem_append.mp mentioned with old | new
          · have child := inside.owned.child (getFile_eq_ok.mpr stored)
              body old
            exact ⟨child.1, child.2.trans directory⟩
          · rw [List.mem_singleton.mp new]
            exact ⟨below, labelled⟩

/-- Taking an entry out of a directory of the label. -/
theorem removeFrom (inside : Inside owner label start files)
    {directoryId : Int} (directory : owner directoryId = label)
    (fileId : Int) :
    Inside owner label start (files.removeFrom directoryId fileId) := by
  unfold SharingFileManager.removeFrom
  cases stored : files.findFile directoryId with
  | none => exact inside
  | some file =>
      cases body : file.body with
      | generalFile other => simpa only [body] using inside
      | storageFile nodeId useCounting => simpa only [body] using inside
      | directory fileList =>
          simp only [body]
          refine inside.setFile stored directory ?_
          intro reference mentioned
          have child := inside.owned.child (getFile_eq_ok.mpr stored)
            body (List.mem_filter.mp mentioned).1
          exact ⟨child.1, child.2.trans directory⟩

/-- `remove_file` on an entry of the label. -/
theorem removeFile (inside : Inside owner label start files)
    {fileId : Int} (labelled : owner fileId = label) :
    Inside owner label start
      ((SharingFileManager.removeFile fileId).after files) := by
  simp only [SharingFileManager.removeFile, Action.after]
  have erased := inside.eraseFile labelled
  cases stored : files.findFile fileId with
  | none => exact erased
  | some file =>
      cases body : file.body with
      | directory fileList => simpa only [body] using erased
      | storageFile nodeId useCounting => simpa only [body] using erased
      | generalFile storageFileId =>
          have storage := inside.owned.references fileId file stored
            storageFileId (by simp [body, FileBody.references])
          simp only [body]
          split
          · exact erased
          · split
            · exact erased.eraseFile (storage.2.trans labelled)
            · exact erased

/-- `create_path` from a directory of the label. -/
theorem createPathFrom_ensures (inside : Inside owner label start files)
    (fresh : ∀ fileId, start.nextId ≤ fileId → owner fileId = label)
    {parentId : Int} (parent : owner parentId = label) (path : List Text) :
    Action.Ensures (createPathFrom parentId path) files
      (fun _ later => Inside owner label start later)
      (fun _ later => Inside owner label start later) := by
  induction path generalizing parentId files with
  | nil => exact Action.ensures_pure.mpr inside
  | cons dirName rest inductionHypothesis =>
      simp only [createPathFrom, Action.ensures_bind, Action.ensures_check]
      refine ⟨fun file got => ?_, fun _ _ => inside⟩
      cases body : file.body with
      | generalFile storageFileId => exact Action.ensures_throw.mpr inside
      | storageFile nodeId useCounting =>
          exact Action.ensures_throw.mpr inside
      | directory fileList =>
          simp only [Action.ensures_bind, Action.ensures_read,
            Action.ensures_ite, Action.ensures_modify]
          constructor
          · intro missing
            refine (inside.registerFile_ensures fresh .directory dirName 0
              (by simp)).mono ?_ fun _ _ failed => failed
            rintro newId later ⟨laterInside, isNew, grown, labelled⟩
            refine inductionHypothesis ?_ labelled
            exact laterInside.pushFile parent (by omega) labelled
          · intro valid
            apply inductionHypothesis inside
            rw [inside.owned.findFileIn got body valid, parent]

/-- `add_file` on the group of the label. -/
theorem addFile_ensures (inside : Inside owner label start files)
    {group : SharingGroup} (root : owner group.rootDirId = label)
    (dirPath : FilePath) {fileId : Int} (below : fileId < files.nextId)
    (labelled : owner fileId = label) :
    Action.Ensures (group.addFile dirPath fileId) files
      (fun _ later => Inside owner label start later)
      (fun _ later => Inside owner label start later) := by
  simp only [addFile, Action.ensures_bind, Action.ensures_check,
    Action.ensures_throwIf, Action.ensures_modify]
  refine ⟨fun dirId resolved => ⟨fun dirFile got => ⟨fun _ => inside,
    fun _ => ?_⟩, fun _ _ => inside⟩, fun _ _ => inside⟩
  rcases getFileIdFrom_owner inside.owned resolved with invalid | sameLabel
  · rw [invalid, getFile_eq_ok, inside.owned.not_found_invalidId] at got
    cases got
  · exact inside.pushFile (sameLabel.trans root) below labelled

/-- `remove_path` on the group of the label. -/
theorem removePath_ensures (inside : Inside owner label start files)
    {group : SharingGroup} (root : owner group.rootDirId = label)
    (path : FilePath) :
    Action.Ensures (group.removePath path) files
      (fun _ later => Inside owner label start later)
      (fun _ later => Inside owner label start later) := by
  simp only [removePath, Action.ensures_bind, Action.ensures_check,
    Action.ensures_throwIf, Action.ensures_modify]
  refine ⟨?_, fun _ _ => inside⟩
  rintro ⟨previousId, parentId⟩ walked
  obtain ⟨previous, parent⟩ :=
    walkToRemove_owner inside.owned root root walked
  refine ⟨fun _ => inside, fun _ => ?_⟩
  have removed := inside.removeFile parent
  refine (Action.ensures_self _ _).mono ?_ ?_
  · intro _ later outcome
    rw [Action.after, outcome] at removed
    exact ⟨fun _ _ => ⟨fun _ => removed, fun _ =>
      removed.removeFrom previous parentId⟩, fun _ _ => removed⟩
  · intro _ later outcome
    rwa [Action.after, outcome] at removed

end Inside

end ResourceServer
end Spaceless
