import Spaceless.ResourceServer.Forest

/-!
# Places on the storage nodes

A storage file lies on its node under the last component of the path it was
uploaded to.  General files have places of their own as long as each upload
finds its place free, which the server does not look up.  The invariant
`Placed` carries this through every operation on the file table.
-/

namespace Spaceless
namespace ResourceServer

open Logic Foundation Protocol

namespace SharingFile

/-- The node of a storage file, and the name that the node is given. -/
def place (file : SharingFile) : Option (Int × Text) :=
  match file.body with
  | .storageFile nodeId _ => some (nodeId, file.fileName)
  | _ => none

/-- The storage file of a general file. -/
def storage (file : SharingFile) : Option Int :=
  match file.body with
  | .generalFile storageFileId => some storageFileId
  | _ => none

/-- The entries of a directory. -/
def list (file : SharingFile) : Option (List Int) :=
  match file.body with
  | .directory fileList => some fileList
  | _ => none

end SharingFile

namespace SharingFileManager

/-- What a view of entries shows at an id. -/
def observe {α : Type} (view : SharingFile → Option α)
    (files : SharingFileManager) (fileId : Int) : Option α :=
  (files.findFile fileId).bind view

section Observations

variable {α : Type} {view : SharingFile → Option α}
  {files : SharingFileManager}

theorem observe_of_findFile {fileId : Int} {file : SharingFile}
    (stored : files.findFile fileId = some file) :
    files.observe view fileId = view file := by
  rw [observe, stored]
  rfl

theorem findFile_of_observe {fileId : Int} {value : α}
    (shows : files.observe view fileId = some value) :
    ∃ file, files.findFile fileId = some file ∧ view file = some value :=
  Option.bind_eq_some_iff.mp shows

theorem observe_setFile (fileId other : Int) (file : SharingFile) :
    (files.setFile fileId file).observe view other =
      if fileId = other then view file else files.observe view other := by
  unfold observe
  rw [findFile_setFile]
  split <;> rfl

/-- A view does not see a replacement that looks the same to it. -/
theorem observe_setFile_of_eq {fileId : Int} {old file : SharingFile}
    (stored : files.findFile fileId = some old)
    (same : view file = view old) (other : Int) :
    (files.setFile fileId file).observe view other =
      files.observe view other := by
  rw [observe_setFile]
  split
  · rename_i here
    rw [same, ← here, observe_of_findFile stored]
  · rfl

theorem observe_eraseFile (fileId other : Int) :
    (files.eraseFile fileId).observe view other =
      if fileId = other then none else files.observe view other := by
  unfold observe
  rw [findFile_eraseFile]
  split <;> rfl

end Observations

/-- Distinct general files lead to storage files in distinct places. -/
def PlacesDistinct (files : SharingFileManager) : Prop :=
  ∀ first second firstStorage secondStorage, first ≠ second →
    files.observe SharingFile.storage first = some firstStorage →
    files.observe SharingFile.storage second = some secondStorage →
    ∃ firstPlace secondPlace,
      files.observe SharingFile.place firstStorage = some firstPlace ∧
      files.observe SharingFile.place secondStorage = some secondPlace ∧
      firstPlace ≠ secondPlace

/-- Every general file has a storage file of its own, storage files have
places of their own, and no directory lists a storage file. -/
structure Placed (files : SharingFileManager) : Prop where
  owned : files.Owned fun _ => 0
  stored : ∀ fileId storageFileId,
    files.observe SharingFile.storage fileId = some storageFileId →
    files.observe SharingFile.place storageFileId ≠ none
  separate : ∀ first second storageFileId,
    files.observe SharingFile.storage first = some storageFileId →
    files.observe SharingFile.storage second = some storageFileId →
    first = second
  apart : ∀ first second place,
    files.observe SharingFile.place first = some place →
    files.observe SharingFile.place second = some place → first = second
  listed : ∀ directoryId fileList child,
    files.observe SharingFile.list directoryId = some fileList →
    child ∈ fileList → files.observe SharingFile.place child = none

namespace Placed

variable {files : SharingFileManager}

theorem placesDistinct (placed : Placed files) : files.PlacesDistinct := by
  intro first second firstStorage secondStorage different firstLeads
    secondLeads
  obtain ⟨firstPlace, firstPlaced⟩ :=
    Option.ne_none_iff_exists'.mp (placed.stored _ _ firstLeads)
  obtain ⟨secondPlace, secondPlaced⟩ :=
    Option.ne_none_iff_exists'.mp (placed.stored _ _ secondLeads)
  refine ⟨firstPlace, secondPlace, firstPlaced, secondPlaced, ?_⟩
  rintro rfl
  obtain rfl := placed.apart _ _ _ firstPlaced secondPlaced
  exact different (placed.separate _ _ _ firstLeads secondLeads)

theorem init : Placed SharingFileManager.init := by
  refine ⟨owned_init _, ?_, ?_, ?_, ?_⟩ <;> intros <;>
    simp_all [observe, findFile, SharingFileManager.init]

/-- Nothing refers to an id that was not handed out. -/
theorem unused (placed : Placed files) (fileId : Int) :
    files.observe SharingFile.storage fileId ≠ some files.nextId := by
  intro leads
  apply placed.stored _ _ leads
  rw [observe, placed.owned.not_found_nextId]
  rfl

/-- Replacing an entry by one with the same place and storage file, that
lists no storage file. -/
theorem setFile (placed : Placed files) {fileId : Int}
    {old file : SharingFile}
    (stored : files.findFile fileId = some old)
    (place : file.place = old.place) (storage : file.storage = old.storage)
    (references : ∀ reference ∈ file.body.references,
      reference < files.nextId)
    (listed : ∀ fileList, file.list = some fileList →
      ∀ child ∈ fileList, files.observe SharingFile.place child = none) :
    Placed (files.setFile fileId file) := by
  have samePlace := observe_setFile_of_eq stored place
  have sameStorage := observe_setFile_of_eq stored storage
  have inside := (Inside.refl placed.owned).setFile stored rfl
    fun reference mentioned => ⟨references reference mentioned, rfl⟩
  refine ⟨inside.owned, ?_, ?_, ?_, ?_⟩
  · intro other storageFileId
    rw [samePlace, sameStorage]
    exact placed.stored other storageFileId
  · intro first second storageFileId
    rw [sameStorage, sameStorage]
    exact placed.separate first second storageFileId
  · intro first second place
    rw [samePlace, samePlace]
    exact placed.apart first second place
  · intro directoryId fileList child shows present
    rw [samePlace]
    rw [observe_setFile] at shows
    split at shows
    · exact listed fileList shows child present
    · exact placed.listed directoryId fileList child shows present

/-- What `insertFile` adds: an entry in a free place, with a storage file
that no other entry uses. -/
theorem insertFile_ensures (placed : Placed files) (file : SharingFile)
    (references : ∀ reference ∈ file.body.references,
      reference < files.nextId)
    (free : ∀ place, file.place = some place →
      ∀ other, files.observe SharingFile.place other ≠ some place)
    (own : ∀ storageFileId, file.storage = some storageFileId →
      files.observe SharingFile.place storageFileId ≠ none ∧
      ∀ other, files.observe SharingFile.storage other ≠
        some storageFileId)
    (empty : ∀ fileList, file.list = some fileList → fileList = []) :
    Action.Ensures (SharingFileManager.insertFile file) files
      (fun fileId later => Placed later ∧ fileId = files.nextId ∧
        later = SharingFileManager.setFile
          { files with nextId := files.nextId + 1 } files.nextId file)
      (fun _ later => Placed later) := by
  have inside := (Inside.refl placed.owned).insertFile_ensures
    (fun _ _ => rfl) file fun reference mentioned =>
      ⟨references reference mentioned, rfl⟩
  simp only [Action.Ensures, SharingFileManager.insertFile,
    placed.owned.not_found_nextId] at inside ⊢
  have shows {α : Type} (view : SharingFile → Option α) (other : Int) :
      (SharingFileManager.setFile
          { files with nextId := files.nextId + 1 } files.nextId file).observe
          view other =
        if files.nextId = other then view file
        else files.observe view other := observe_setFile _ _ _
  have older {α : Type} {view : SharingFile → Option α} {other : Int}
      (present : files.observe view other ≠ none) :
      files.nextId ≠ other := by
    rintro rfl
    apply present
    rw [observe, placed.owned.not_found_nextId]
    rfl
  refine ⟨⟨inside.1.owned, ?_, ?_, ?_, ?_⟩, trivial, trivial⟩
  · intro fileId storageFileId leads
    have present : files.observe SharingFile.place storageFileId ≠ none := by
      rw [shows] at leads
      split at leads
      · exact (own storageFileId leads).1
      · exact placed.stored _ _ leads
    rwa [shows, if_neg (older present)]
  · intro first second storageFileId firstLeads secondLeads
    rw [shows] at firstLeads secondLeads
    split at firstLeads <;> split at secondLeads
    · omega
    · exact absurd secondLeads ((own storageFileId firstLeads).2 second)
    · exact absurd firstLeads ((own storageFileId secondLeads).2 first)
    · exact placed.separate _ _ _ firstLeads secondLeads
  · intro first second place firstPlaced secondPlaced
    rw [shows] at firstPlaced secondPlaced
    split at firstPlaced <;> split at secondPlaced
    · omega
    · exact absurd secondPlaced (free place firstPlaced second)
    · exact absurd firstPlaced (free place secondPlaced first)
    · exact placed.apart _ _ _ firstPlaced secondPlaced
  · intro directoryId fileList child listed present
    rw [shows] at listed
    split at listed
    · rw [empty fileList listed] at present
      cases present
    · have below : child ≠ files.nextId := by
        obtain ⟨directory, stored, body⟩ := findFile_of_observe listed
        unfold SharingFile.list at body
        split at body
        · rename_i isDirectory
          cases body
          have child := placed.owned.child (getFile_eq_ok.mpr stored)
            isDirectory present
          omega
        · cases body
      rw [shows, if_neg below.symm]
      exact placed.listed directoryId fileList child listed present

/-- Erasing an entry that nothing refers to as its storage file. -/
theorem eraseFile (placed : Placed files) {fileId : Int}
    (unused : ∀ other,
      files.observe SharingFile.storage other ≠ some fileId) :
    Placed (files.eraseFile fileId) := by
  have kept {α : Type} {view : SharingFile → Option α} {other : Int}
      {value : α}
      (shows : (files.eraseFile fileId).observe view other = some value) :
      files.observe view other = some value := by
    rw [observe_eraseFile] at shows
    split at shows
    · cases shows
    · exact shows
  have inside := @Inside.eraseFile _ 0 _ _ (Inside.refl placed.owned)
    fileId rfl
  refine ⟨inside.owned, ?_, ?_, ?_, ?_⟩
  · intro other storageFileId leads
    have different : fileId ≠ storageFileId := by
      rintro rfl
      exact unused other (kept leads)
    rw [observe_eraseFile, if_neg different]
    exact placed.stored _ _ (kept leads)
  · intro first second storageFileId firstLeads secondLeads
    exact placed.separate _ _ _ (kept firstLeads) (kept secondLeads)
  · intro first second place firstPlaced secondPlaced
    exact placed.apart _ _ _ (kept firstPlaced) (kept secondPlaced)
  · intro directoryId fileList child listed present
    rw [observe_eraseFile]
    split
    · rfl
    · exact placed.listed _ _ _ (kept listed) present

/-! ## Operations on directories -/

/-- A directory of the table with other entries, which are not storage
files. -/
theorem setList (placed : Placed files) {directoryId : Int}
    {file : SharingFile} {fileList : List Int}
    (stored : files.findFile directoryId = some file)
    (body : file.body = .directory fileList) (changed : List Int)
    (entries : ∀ child ∈ changed, child < files.nextId ∧
      files.observe SharingFile.place child = none) :
    Placed (files.setFile directoryId
      { file with body := .directory changed }) := by
  refine placed.setFile stored ?_ ?_ ?_ ?_
  · simp [SharingFile.place, body]
  · simp [SharingFile.storage, body]
  · exact fun child present => (entries child present).1
  · intro other shows child present
    cases shows
    exact (entries child present).2

theorem entry (placed : Placed files) {directoryId child : Int}
    {file : SharingFile} {fileList : List Int}
    (stored : files.findFile directoryId = some file)
    (body : file.body = .directory fileList) (present : child ∈ fileList) :
    child < files.nextId ∧
      files.observe SharingFile.place child = none := by
  refine ⟨(placed.owned.child (getFile_eq_ok.mpr stored) body present).1, ?_⟩
  refine placed.listed directoryId fileList child ?_ present
  rw [observe_of_findFile stored, SharingFile.list, body]

theorem pushFile (placed : Placed files) (directoryId : Int) {fileId : Int}
    (below : fileId < files.nextId)
    (notStorage : files.observe SharingFile.place fileId = none) :
    Placed (files.pushFile directoryId fileId) := by
  unfold SharingFileManager.pushFile
  cases stored : files.findFile directoryId with
  | none => exact placed
  | some file =>
      cases body : file.body with
      | generalFile other => simpa only [body] using placed
      | storageFile nodeId useCounting => simpa only [body] using placed
      | directory fileList =>
          simp only [body]
          refine placed.setList stored body _ ?_
          intro child present
          rcases List.mem_append.mp present with old | new
          · exact placed.entry stored body old
          · rw [List.mem_singleton.mp new]
            exact ⟨below, notStorage⟩

theorem removeFrom (placed : Placed files) (directoryId fileId : Int) :
    Placed (files.removeFrom directoryId fileId) := by
  unfold SharingFileManager.removeFrom
  cases stored : files.findFile directoryId with
  | none => exact placed
  | some file =>
      cases body : file.body with
      | generalFile other => simpa only [body] using placed
      | storageFile nodeId useCounting => simpa only [body] using placed
      | directory fileList =>
          simp only [body]
          refine placed.setList stored body _ ?_
          intro child present
          exact placed.entry stored body (List.mem_filter.mp present).1

/-- `register_file` of a directory. -/
theorem registerDirectory_ensures (placed : Placed files)
    (fileName : Text) :
    Action.Ensures
      (SharingFileManager.registerFile .directory fileName 0) files
      (fun fileId later => Placed later ∧ fileId < later.nextId ∧
        later.observe SharingFile.place fileId = none)
      (fun _ later => Placed later) := by
  refine (placed.insertFile_ensures _ ?_ ?_ ?_ ?_).mono ?_
    fun _ _ failed => failed
  · simp [FileBody.references]
  · simp [SharingFile.place]
  · simp [SharingFile.storage]
  · simp [SharingFile.list]
  · rintro fileId later ⟨laterPlaced, rfl, rfl⟩
    refine ⟨laterPlaced, ?_, ?_⟩
    · simp only [setFile_nextId]
      omega
    · rw [observe_setFile, if_pos rfl, SharingFile.place]

/-- Taking a reference on a storage file is not seen by the views. -/
theorem useStorageFile_ensures (placed : Placed files)
    (storageFileId : Int) :
    Action.Ensures (useStorageFile storageFileId) files
      (fun _ later => Placed later ∧ storageFileId < later.nextId ∧
        (∀ other, later.observe SharingFile.place other =
          files.observe SharingFile.place other) ∧
        ∀ other, later.observe SharingFile.storage other =
          files.observe SharingFile.storage other)
      (fun _ later => Placed later) := by
  unfold Action.Ensures useStorageFile
  cases got : files.getFile storageFileId with
  | error fault => exact placed
  | ok file =>
      cases body : file.body with
      | directory fileList => simpa only [body] using placed
      | generalFile other => simpa only [body] using placed
      | storageFile nodeId useCounting =>
          simp only [body]
          have stored := getFile_eq_ok.mp got
          have place : SharingFile.place { file with
              body := .storageFile nodeId (useCounting + 1) } =
              file.place := by
            simp [SharingFile.place, body]
          have storage : SharingFile.storage { file with
              body := .storageFile nodeId (useCounting + 1) } =
              file.storage := by
            simp [SharingFile.storage, body]
          refine ⟨placed.setFile stored place storage ?_ ?_,
            (placed.owned.bounds _ _ stored).2,
            observe_setFile_of_eq stored place,
            observe_setFile_of_eq stored storage⟩
          · simp [FileBody.references]
          · simp [SharingFile.list]

/-- `register_file` of a general file for an unused storage file. -/
theorem registerGeneral_ensures (placed : Placed files) (fileName : Text)
    {storageFileId : Int}
    (present : files.observe SharingFile.place storageFileId ≠ none)
    (unused : ∀ other,
      files.observe SharingFile.storage other ≠ some storageFileId) :
    Action.Ensures
      (SharingFileManager.registerFile .generalFile fileName storageFileId)
      files
      (fun fileId later => Placed later ∧ fileId < later.nextId ∧
        later.observe SharingFile.place fileId = none)
      (fun _ later => Placed later) := by
  simp only [registerFile, Action.ensures_bind]
  refine (placed.useStorageFile_ensures storageFileId).mono ?_
    fun _ _ failed => failed
  rintro _ used ⟨usedPlaced, below, samePlace, sameStorage⟩
  refine (usedPlaced.insertFile_ensures _ ?_ ?_ ?_ ?_).mono ?_
    fun _ _ failed => failed
  · simpa [FileBody.references] using below
  · simp [SharingFile.place]
  · intro other same
    cases same
    rw [samePlace]
    refine ⟨present, fun other => ?_⟩
    rw [sameStorage]
    exact unused other
  · simp [SharingFile.list]
  · rintro fileId later ⟨laterPlaced, rfl, rfl⟩
    refine ⟨laterPlaced, ?_, ?_⟩
    · simp only [setFile_nextId]
      omega
    · rw [observe_setFile, if_pos rfl, SharingFile.place]

theorem createPathFrom_ensures (placed : Placed files) (parentId : Int)
    (path : List Text) :
    Action.Ensures (SharingGroup.createPathFrom parentId path) files
      (fun _ later => Placed later) (fun _ later => Placed later) := by
  induction path generalizing parentId files with
  | nil => exact Action.ensures_pure.mpr placed
  | cons dirName rest inductionHypothesis =>
      simp only [SharingGroup.createPathFrom, Action.ensures_bind,
        Action.ensures_check]
      refine ⟨fun file got => ?_, fun _ _ => placed⟩
      split
      · simp only [Action.ensures_bind, Action.ensures_read,
          Action.ensures_ite, Action.ensures_modify]
        refine ⟨fun missing => ?_, fun valid => inductionHypothesis placed _⟩
        refine (placed.registerDirectory_ensures dirName).mono ?_
          fun _ _ failed => failed
        rintro newId later ⟨laterPlaced, below, notStorage⟩
        exact inductionHypothesis
          (laterPlaced.pushFile parentId below notStorage) newId
      · exact Action.ensures_throw.mpr placed

theorem addFile_ensures (placed : Placed files) (group : SharingGroup)
    (dirPath : FilePath) {fileId : Int} (below : fileId < files.nextId)
    (notStorage : files.observe SharingFile.place fileId = none) :
    Action.Ensures (group.addFile dirPath fileId) files
      (fun _ later => Placed later) (fun _ later => Placed later) := by
  simp only [SharingGroup.addFile, Action.ensures_bind, Action.ensures_check,
    Action.ensures_throwIf, Action.ensures_modify]
  exact ⟨fun dirId _ => ⟨fun _ _ => ⟨fun _ => placed,
    fun _ => placed.pushFile dirId below notStorage⟩, fun _ _ => placed⟩,
    fun _ _ => placed⟩

/-! ## Removal -/

/-- A walk ends where it starts, or at an entry of a directory. -/
theorem walkToRemove_notStorage (placed : Placed files)
    {previousId parentId : Int} {path : List Text} {found : Int × Int}
    (walked : SharingGroup.walkToRemove files previousId parentId path =
      .ok found) :
    found.2 = parentId ∨
      files.observe SharingFile.place found.2 = none := by
  induction path generalizing previousId parentId with
  | nil =>
      cases walked
      exact Or.inl rfl
  | cons dirName rest inductionHypothesis =>
      rw [SharingGroup.walkToRemove] at walked
      cases got : files.getFile parentId with
      | error fault => simp [got] at walked
      | ok parent =>
          cases body : parent.body with
          | generalFile storageFileId => simp [got, body] at walked
          | storageFile nodeId useCounting => simp [got, body] at walked
          | directory fileList =>
              simp only [got, body] at walked
              split at walked
              · cases walked
              · rename_i valid
                right
                rcases inductionHypothesis walked with same | notStorage
                · rw [same]
                  exact (placed.entry (getFile_eq_ok.mp got) body
                    (findFileIn_mem valid)).2
                · exact notStorage

theorem removeFile (placed : Placed files) {fileId : Int}
    (notStorage : files.observe SharingFile.place fileId = none) :
    Placed ((SharingFileManager.removeFile fileId).after files) := by
  simp only [SharingFileManager.removeFile, Action.after]
  have erased : Placed (files.eraseFile fileId) := by
    refine placed.eraseFile fun other leads => ?_
    exact placed.stored _ _ leads notStorage
  cases stored : files.findFile fileId with
  | none => exact erased
  | some file =>
      cases body : file.body with
      | directory fileList => simpa only [body] using erased
      | storageFile nodeId useCounting => simpa only [body] using erased
      | generalFile storageFileId =>
          have leads : files.observe SharingFile.storage fileId =
              some storageFileId := by
            rw [observe_of_findFile stored, SharingFile.storage, body]
          simp only [body]
          split
          · exact erased
          · split
            · refine erased.eraseFile fun other otherLeads => ?_
              rw [observe_eraseFile] at otherLeads
              split at otherLeads
              · cases otherLeads
              · rename_i different
                exact different (placed.separate _ _ _ leads otherLeads)
            · exact erased

theorem removePath_ensures (placed : Placed files) (group : SharingGroup)
    (path : FilePath) :
    Action.Ensures (group.removePath path) files
      (fun _ later => Placed later) (fun _ later => Placed later) := by
  simp only [SharingGroup.removePath, Action.ensures_bind,
    Action.ensures_check, Action.ensures_throwIf, Action.ensures_modify]
  refine ⟨?_, fun _ _ => placed⟩
  rintro ⟨previousId, parentId⟩ walked
  refine ⟨fun _ => placed, fun notRoot => ?_⟩
  have removed := placed.removeFile
    ((placed.walkToRemove_notStorage walked).resolve_left notRoot)
  refine (Action.ensures_self _ _).mono ?_ ?_
  · intro _ later outcome
    rw [Action.after, outcome] at removed
    exact ⟨fun _ _ => ⟨fun _ => removed, fun _ =>
      removed.removeFrom previousId parentId⟩, fun _ _ => removed⟩
  · intro _ later outcome
    rwa [Action.after, outcome] at removed

end Placed

theorem observe_place_of_findFileOnNode {files : SharingFileManager}
    {nodeId : Int} {filename : Text}
    (absent : files.findFileOnNode nodeId filename = none) (other : Int) :
    files.observe SharingFile.place other ≠ some (nodeId, filename) := by
  intro shows
  obtain ⟨file, stored, place⟩ := findFile_of_observe shows
  have different := Table.findIf_eq_none.mp absent other file stored
  unfold SharingFile.place at place
  split at place
  · rename_i body
    cases place
    simp [body] at different
  · cases place

end SharingFileManager

open SharingFileManager

/-! ## Changes of the server -/

/-- The files of the server and those of its data file are placed. -/
structure PlacedServer (server : Server) : Prop where
  running : Placed server.files
  saved : ∀ file, server.dataFile = some file →
    Placed (SharingFileManager.deserialize file.files)

theorem placedServer_init : PlacedServer Server.init :=
  ⟨Placed.init, by simp [Server.init]⟩

namespace PlacedServer

variable {before : Server}

theorem restart (placed : PlacedServer before)
    (rest : Int → UninitializedUser) :
    PlacedServer (before.restart rest) := by
  unfold Server.restart
  cases stored : before.dataFile with
  | none => exact placedServer_init
  | some file =>
      have saved := placed.saved file stored
      refine ⟨saved, ?_⟩
      intro other same
      cases same
      exact saved

theorem registerGroup (placed : PlacedServer before)
    (userId : Int) (groupName : Text) :
    PlacedServer
      ((Server.registerGroup userId groupName).after before) := by
  have files (later : SharingFileManager) (laterPlaced : Placed later)
      (groups : SharingGroupManager) (nodes : StorageNodeManager) :
      PlacedServer { before with
        files := later, groups := groups, nodes := nodes } :=
    ⟨laterPlaced, placed.saved⟩
  refine Action.ensures_after.mp ?_
  simp only [Server.registerGroup, Server.onFiles, Server.onGroups,
    Server.onNodes, Action.ensures_bind, Action.ensures_read,
    Action.ensures_throwIf, Action.ensures_zoom, Action.ensures_check,
    Action.ensures_modify, Action.ensures_pure]
  refine ⟨fun _ => placed, fun _ => ?_⟩
  refine (placed.running.registerDirectory_ensures groupName).mono ?_
    fun _ later failed => files later failed _ _
  rintro rootDirId later ⟨laterPlaced, below, notStorage⟩
  exact ⟨fun node _ => ⟨fun _ => files later laterPlaced _ _,
    fun _ => files later laterPlaced _ _⟩,
    fun _ _ => files later laterPlaced _ _⟩

/-- An upload to a free place. -/
theorem registerPutFile (placed : PlacedServer before)
    (user : User) (group : SharingGroup) (request : ReqPutFileSession)
    (free : group.existPath before.files (FilePath.ofText
        (FilePath.ofText request.filePath).directoryPath) = .ok true →
      group.existPath before.files (FilePath.ofText request.filePath) =
        .ok false →
      before.files.findFileOnNode group.nodeId
        (FilePath.ofText request.filePath).filename = none) :
    Action.Ensures (registerPutFile user group request) before
      (fun _ later => PlacedServer later)
      (fun _ later => PlacedServer later) := by
  have filesOf (later : SharingFileManager) (laterPlaced : Placed later)
      (sessions : FileSessionManager) :
      PlacedServer { before with files := later, sessions := sessions } :=
    ⟨laterPlaced, placed.saved⟩
  simp only [ResourceServer.registerPutFile, Action.ensures_bind,
    Action.ensures_check, Action.ensures_throwIf, Server.onFiles,
    Server.onSessions, Action.ensures_zoom]
  refine ⟨fun directory directoryChecked => ⟨fun _ => placed,
    fun exists_ => ⟨fun path pathChecked => ⟨fun _ => placed,
      fun absent => ?_⟩, fun _ _ => placed⟩⟩, fun _ _ => placed⟩
  rw [Bool.not_eq_false] at exists_
  rw [Bool.not_eq_true] at absent
  subst exists_ absent
  have freePlace := observe_place_of_findFileOnNode
    (free directoryChecked pathChecked)
  refine (placed.running.insertFile_ensures _ ?_ ?_ ?_ ?_).mono ?_
    fun _ later failed => filesOf later failed _
  · simp [FileBody.references]
  · rintro place same
    cases same
    exact freePlace
  · simp [SharingFile.storage]
  · simp [SharingFile.list]
  rintro storageId files ⟨storagePlaced, rfl, rfl⟩
  refine (storagePlaced.registerGeneral_ensures _ ?_ ?_).mono ?_
    fun _ later failed => filesOf later failed _
  · simp [observe_setFile, SharingFile.place]
  · intro other
    rw [observe_setFile]
    split
    · simp [SharingFile.storage]
    · exact placed.running.unused other
  rintro generalId later ⟨laterPlaced, below, notStorage⟩
  refine (laterPlaced.addFile_ensures group _ below notStorage).mono ?_
    fun _ later failed => filesOf later failed _
  intro _ added addedPlaced
  refine Action.ensures_of_forall ?_
    fun _ sessions => filesOf added addedPlaced sessions
  intro sessionId sessions
  exact ⟨fun _ _ => filesOf added addedPlaced sessions,
    fun _ _ => filesOf added addedPlaced sessions⟩

/-- A session request whose upload, if it makes one, finds its place
free. -/
theorem putSession (placed : PlacedServer before)
    (user : User) (group : SharingGroup) (request : ReqPutFileSession)
    (free : Uploads before user group request →
      before.files.findFileOnNode group.nodeId
        (FilePath.ofText request.filePath).filename = none) :
    PlacedServer ((putSession user group request).after before) := by
  refine Action.ensures_after.mp ?_
  simp only [ResourceServer.putSession, Action.ensures_bind]
  unfold Server.onSessions
  rw [Action.ensures_zoom]
  refine (Action.ensures_self _ _).mono ?_
    fun _ sessions _ => ⟨placed.running, placed.saved⟩
  intro found sessions looked
  have kept : PlacedServer { before with sessions := sessions } :=
    ⟨placed.running, placed.saved⟩
  cases found with
  | some session =>
      simp only [Action.ensures_bind, Action.ensures_throwIf,
        Action.ensures_pure]
      exact ⟨fun _ => kept, fun _ => kept⟩
  | none =>
      refine kept.registerPutFile user group request ?_
      intro directory path
      exact free ⟨by rw [looked], directory, path⟩

/-- A change whose upload, if it makes one, finds its place free. -/
theorem change {source : Source} {after : Server}
    (placed : PlacedServer before) (change : Change before source after)
    (free : ∀ connId package request user group,
      source = .request connId package → package.command = 1027 →
      package.content = some (.reqPutFileSession request) →
      Manages before connId request.groupId user group →
      Uploads before user group request →
      before.files.findFileOnNode group.nodeId
        (FilePath.ofText request.filePath).filename = none) :
    PlacedServer after := by
  have sameFiles {later : Server} (files : later.files = before.files)
      (dataFile : later.dataFile = before.dataFile) : PlacedServer later :=
    ⟨files ▸ placed.running, dataFile ▸ placed.saved⟩
  have changedFiles {files : SharingFileManager}
      (changed : Placed files) : PlacedServer { before with files := files } :=
    ⟨changed, placed.saved⟩
  cases change with
  | same => exact placed
  | users changed => exact sameFiles rfl rfl
  | nodes changed => exact sameFiles rfl rfl
  | serialize =>
      refine ⟨placed.running, ?_⟩
      intro file stored
      cases stored
      rw [SharingFileManager.deserialize_serialize]
      exact placed.running
  | registerGroup userId groupName =>
      exact placed.registerGroup userId groupName
  | roles acts target place permitted => exact sameFiles rfl rfl
  | @createPath connId package groupId user group path content manages =>
      exact changedFiles (Action.ensures_after.mp
        (placed.running.createPathFrom_ensures _ _))
  | @removePath connId package groupId user group path force content
      manages =>
      exact changedFiles (Action.ensures_after.mp
        (placed.running.removePath_ensures group _))
  | @putSession connId package user group request command content
      manages =>
      exact placed.putSession user group request
        (free connId package request user group rfl command content manages)
  | getSession filePath command content acts member general =>
      obtain ⟨sessions, changed⟩ := after_getSession before _ _ filePath
      rw [changed]
      exact sameFiles rfl rfl
  | putFragment request command content login found own next =>
      exact sameFiles rfl rfl
  | removeSession sessionId => exact sameFiles rfl rfl
  | putNodeSession sessionId nodeSessionId found => exact sameFiles rfl rfl
  | getNodeSession sessionId nodeSessionId found => exact sameFiles rfl rfl

theorem changed {source : Source} {after : Server}
    (placed : PlacedServer before) (changed : Changed before source after)
    (free : ∀ connId package request user group,
      source = .request connId package → package.command = 1027 →
      package.content = some (.reqPutFileSession request) →
      Manages before connId request.groupId user group →
      Uploads before user group request →
      before.files.findFileOnNode group.nodeId
        (FilePath.ofText request.filePath).filename = none) :
    PlacedServer after := by
  induction changed with
  | change change => exact placed.change change free
  | cleanUp changed sessionId placedAfter =>
      exact ⟨placedAfter.running, placedAfter.saved⟩

end PlacedServer

/-! ## Runs -/

/-- If the event makes the server register an upload, no storage file lies in
its place on the node. -/
def FreePlace (worker : ServerWorker) (event : ServerEvent) : Prop :=
  match event with
  | .worker (.receive _ connId _ package) =>
      worker.waitingTransaction package = none → package.command = 1027 →
      ∀ request user group,
        package.content = some (.reqPutFileSession request) →
        Manages worker.app connId request.groupId user group →
        Uploads worker.app user group request →
        worker.app.files.findFileOnNode group.nodeId
          (FilePath.ofText request.filePath).filename = none
  | _ => True

variable {messageSize : Message → Nat}

theorem PlacedServer.step {worker later : ServerWorker} {event : ServerEvent}
    (placed : PlacedServer worker.app) (free : FreePlace worker event)
    (stepped : (serverMachine messageSize).step worker event = some later) :
    PlacedServer later.app := by
  cases event with
  | restart rest =>
      cases stepped
      exact placed.restart rest
  | worker event =>
      refine placed.changed (step_changed stepped) ?_
      intro connId asked request user group source command content manages
        uploads
      obtain ⟨starts, now, serviceId, rfl⟩ := eventSource_eq_request source
      exact free starts command request user group content manages uploads

/-- In a run whose uploads all find their place free, shared files never
share a place. -/
theorem placesDistinct_throughout {events : List ServerEvent}
    (free : (serverMachine messageSize).StepsMeet FreePlace events) :
    (serverMachine messageSize).Throughout
      (fun worker => worker.app.files.PlacesDistinct) events := by
  have placed : (serverMachine messageSize).Throughout
      (fun worker => PlacedServer worker.app) events := by
    refine free.throughout placedServer_init ?_
    intro worker event later placed freePlace stepped
    exact placed.step freePlace stepped
  intro first second split worker reaches
  exact (placed first second split worker reaches).running.placesDistinct

/-! ## Two uploads under one name -/

/-- The root user uploads `f` into the root directory of the group. -/
def uploadEvents : List ServerEvent :=
  openingEvents ++ [clientRequest 5 (.reqPutFileSession
    { groupId := 1, filePath := ['f'], maxFragment := 1 })]

theorem uploadEvents_free :
    (serverMachine fun _ => 0).StepsMeet FreePlace uploadEvents := by
  refine Machine.StepsMeet.snoc (Machine.StepsMeet.of_forall ?_) ?_
  · intro event opens worker
    simp only [openingEvents, clientRequest, List.mem_cons,
      List.not_mem_nil, or_false] at opens
    rcases opens with rfl | rfl | rfl | rfl <;> simp [FreePlace]
  · intro worker reaches
    obtain rfl := reaches.unique openedWorker_reaches
    rintro - - request user group content manages -
    cases content
    have first : openedWorker.app.groups.findGroup 1 =
        some (SharingGroup.init 1 ['g'] 1 1 1) := by decide +kernel
    obtain rfl := Option.some_inj.mp (manages.found.symm.trans first)
    decide +kernel

theorem placesDistinct_after_upload :
    (serverMachine fun _ => 0).Throughout
      (fun worker => worker.app.files.PlacesDistinct) uploadEvents :=
  placesDistinct_throughout uploadEvents_free

/-- Another upload of the same name into another directory. -/
def sameNameEvents : List ServerEvent :=
  uploadEvents ++
    [clientRequest 5 (.reqCreatePath 1 ['d']),
      clientRequest 5 (.reqPutFileSession
        { groupId := 1, filePath := ['d', '/', 'f'], maxFragment := 1 })]

theorem not_placesDistinct_always :
    ¬∀ worker : ServerWorker, (serverMachine fun _ => 0).Reachable worker →
      worker.app.files.PlacesDistinct := by
  intro always
  have distinct := always
    (((serverMachine fun _ => 0).run (serverMachine fun _ => 0).start
      sameNameEvents).get (by decide +kernel))
    ⟨sameNameEvents, (Option.some_get _).symm⟩
  obtain ⟨firstPlace, secondPlace, firstPlaced, secondPlaced, different⟩ :=
    distinct 3 6 2 5 (by decide) (by decide +kernel) (by decide +kernel)
  apply different
  apply Option.some_inj.mp
  rw [← firstPlaced, ← secondPlaced]
  decide +kernel

end ResourceServer
end Spaceless
