import Spaceless.ResourceServer.Walk

/-!
# The path functions on a table in shape

Creating a path makes directories, removing one takes out an entry or stops
at the checks, and a session request enters its file into a directory or
leaves it without one.
-/

namespace Spaceless
namespace ResourceServer

open Logic Foundation Protocol

namespace SharingFileManager

variable {files : SharingFileManager} {roots : Int → Prop}

/-! ## Paths that are created -/

theorem createPathFrom_ensures (shape : Shape roots files)
    (parentId : Int) (path : List Text) :
    Action.Ensures (SharingGroup.createPathFrom parentId path) files
      (fun _ => Relation.ReflTransGen MakesDirectory files)
      (fun _ => Relation.ReflTransGen MakesDirectory files) := by
  induction path generalizing parentId files with
  | nil => exact Action.ensures_pure.mpr .refl
  | cons dirName rest inductionHypothesis =>
      simp only [SharingGroup.createPathFrom, Action.ensures_bind,
        Action.ensures_check]
      refine ⟨fun file got => ?_, fun _ _ => .refl⟩
      have found := getFile_eq_ok.mp got
      split
      · rename_i fileList body
        have listed : files.observe SharingFile.list parentId =
            some fileList := by
          rw [observe_of_findFile found, SharingFile.list, body]
        simp only [Action.ensures_bind, Action.ensures_read,
          Action.ensures_ite, Action.ensures_modify]
        constructor
        · intro missing
          have makes := MakesDirectory.under dirName listed missing
          have registered := insertFile_eq
            (shape.fresh files.nextId (Int.le_refl _))
            { fileName := dirName, body := .directory [] }
          refine Action.ensures_of_ok registered ?_
          refine (inductionHypothesis (shape.makesDirectory makes)
            files.nextId).mono ?_ ?_ <;>
            exact fun _ _ later => .head makes later
        · intro valid
          exact inductionHypothesis shape _
      · exact Action.ensures_throw.mpr .refl

theorem createPath_makes (shape : Shape roots files)
    (group : SharingGroup) (path : FilePath) :
    Relation.ReflTransGen MakesDirectory files
      ((group.createPath path).after files) :=
  Action.ensures_after.mp (createPathFrom_ensures shape _ _)

/-! ## Paths that are removed -/

/-- The path leads to an entry that `remove_path` takes out. -/
structure Removes (files : SharingFileManager) (group : SharingGroup)
    (path : FilePath) (parentId target : Int) (fileList : List Int) :
    Prop where
  walk : Walk files group.rootDirId path.split target
  listed : files.observe SharingFile.list parentId = some fileList
  present : target ∈ fileList
  walked : SharingGroup.walkToRemove files group.rootDirId group.rootDirId
    path.split = .ok (parentId, target)
  notRoot : target ≠ group.rootDirId

theorem removes_of_walked {group : SharingGroup} {path : FilePath}
    {parentId target : Int}
    (walked : SharingGroup.walkToRemove files group.rootDirId
      group.rootDirId path.split = .ok (parentId, target))
    (notRoot : target ≠ group.rootDirId) :
    ∃ fileList, Removes files group path parentId target fileList := by
  obtain ⟨walk, same | ⟨fileList, listed, present⟩⟩ :=
    walk_of_walkToRemove walked
  · cases same
    exact absurd rfl notRoot
  · exact ⟨fileList, walk, listed, present, walked, notRoot⟩

/-- Removing a directory or a general file of a table in shape. -/
theorem Shape.removeFile_eq (shape : Shape roots files) {target : Int}
    (live : files.hierarchy.live target) :
    removeFile target files = (.ok (), files.eraseEntry target) := by
  obtain ⟨⟨fileName, body⟩, found, place⟩ := live
  unfold removeFile eraseEntry
  rw [found, observe_of_findFile found]
  cases body with
  | directory fileList => rfl
  | storageFile nodeId useCounting => cases place
  | generalFile storageFileId =>
      have leads : files.observe SharingFile.storage target =
          some storageFileId := observe_of_findFile found
      obtain ⟨⟨storageName, storageBody⟩, stored, counts⟩ :=
        findFile_of_observe (shape.stored target storageFileId leads)
      have apart : target ≠ storageFileId := by
        rintro rfl
        rw [found] at stored
        cases stored
        cases counts
      have still : (files.eraseFile target).getFile storageFileId =
          .ok { fileName := storageName, body := storageBody } := by
        rw [getFile_eq_ok, findFile_eraseFile, if_neg apart]
        exact stored
      cases storageBody with
      | storageFile nodeId useCounting => simp only [still, SharingFile.storage]
      | directory fileList => cases counts
      | generalFile other => cases counts

/-- After its checks `remove_path` succeeds. -/
theorem Shape.removePath_eq (shape : Shape roots files)
    {group : SharingGroup} {path : FilePath} {parentId target : Int}
    {fileList : List Int}
    (removes : Removes files group path parentId target fileList) :
    group.removePath path files =
      (.ok (), (files.eraseEntry target).removeFrom parentId target) := by
  have child : files.hierarchy.Child parentId target := by
    rw [Hierarchy.Child, children_of_list removes.listed]
    exact removes.present
  have removed := shape.removeFile_eq (shape.arranged.live _ _ child).2
  obtain ⟨fileName, still⟩ := observe_list_eq_some.mp
    (shape.list_eraseEntry removes.listed (shape.arranged.ne child))
  simp only [SharingGroup.removePath, Action.bind_apply,
    Action.check_apply, removes.walked, Action.throwIf, removes.notRoot,
    if_false, Action.pure_apply, removed, getFile_eq_ok.mpr still,
    SharingFile.fileType, ne_eq, not_true_eq_false, Action.modify_apply]

/-- `remove_path` takes out an entry, or it stops at its checks. -/
theorem Shape.removePath_cases (shape : Shape roots files)
    (group : SharingGroup) (path : FilePath) :
    (group.removePath path).after files = files ∨
      ∃ parentId target fileList,
        Removes files group path parentId target fileList ∧
        (group.removePath path).after files =
          (files.eraseEntry target).removeFrom parentId target := by
  cases walked : SharingGroup.walkToRemove files group.rootDirId
      group.rootDirId path.split with
  | error fault =>
      left
      simp only [SharingGroup.removePath, Action.after, Action.bind_apply,
        Action.check_apply, walked]
  | ok found =>
      obtain ⟨parentId, target⟩ := found
      by_cases isRoot : target = group.rootDirId
      · left
        simp only [SharingGroup.removePath, Action.after, Action.bind_apply,
          Action.check_apply, walked, Action.throwIf, isRoot, if_true,
          Action.throw_apply]
      · right
        obtain ⟨fileList, removes⟩ := removes_of_walked walked isRoot
        refine ⟨parentId, target, fileList, removes, ?_⟩
        rw [Action.after, shape.removePath_eq removes]

/-! ## Uploads -/

theorem setFile_setFile (files : SharingFileManager) (fileId : Int)
    (first second : SharingFile) :
    (files.setFile fileId first).setFile fileId second =
      files.setFile fileId second := by
  simp only [setFile]
  congr 1
  apply Std.ExtTreeMap.ext_getElem?
  intro other
  rw [Table.lookup_insert, Table.lookup_insert, Table.lookup_insert]
  split <;> rfl

section Upload

variable (shape : Shape roots files)

include shape

theorem Shape.registerStorage_eq (fileName : Text) (nodeId : Int) :
    registerFile .storageFile fileName nodeId files =
      (.ok files.nextId, files.addEntry
        { fileName := fileName, body := .storageFile nodeId 0 }) :=
  insertFile_eq (shape.fresh files.nextId (Int.le_refl _)) _

/-- The storage file that was just registered gets its one reference. -/
theorem Shape.registerGeneral_eq (fileName : Text) (nodeId : Int) :
    registerFile .generalFile fileName files.nextId (files.addEntry
        { fileName := fileName, body := .storageFile nodeId 0 }) =
      (.ok (files.nextId + 1), files.addUpload fileName nodeId) := by
  have got : (files.addEntry
      { fileName := fileName, body := .storageFile nodeId 0 }).getFile
        files.nextId =
      .ok { fileName := fileName, body := .storageFile nodeId 0 } := by
    rw [getFile_eq_ok, findFile_addEntry, if_pos rfl]
  have used : useStorageFile files.nextId (files.addEntry
        { fileName := fileName, body := .storageFile nodeId 0 }) =
      (.ok (), files.addEntry
        { fileName := fileName, body := .storageFile nodeId 1 }) := by
    simp only [useStorageFile, got]
    rw [addEntry, setFile_setFile]
    rfl
  simp only [registerFile, Action.bind_apply, used]
  refine insertFile_eq ?_ _
  rw [findFile_addEntry, addEntry_nextId, if_neg (by omega)]
  exact shape.fresh _ (by omega)

end Upload

theorem addFile_eq {group : SharingGroup} {path : FilePath}
    {dirId : Int} {fileList : List Int}
    (walk : Walk files group.rootDirId path.split dirId)
    (listed : files.observe SharingFile.list dirId = some fileList)
    (fileId : Int) :
    group.addFile path fileId files =
      (.ok (), files.pushFile dirId fileId) := by
  obtain ⟨fileName, found⟩ := observe_list_eq_some.mp listed
  have resolved : group.getFileId files path = .ok dirId :=
    getFileIdFrom_of_walk walk
  simp only [SharingGroup.addFile, Action.bind_apply, Action.check_apply,
    resolved, getFile_eq_ok.mpr found, Action.throwIf, SharingFile.fileType,
    ne_eq, not_true_eq_false, if_false, Action.pure_apply,
    Action.modify_apply]

/-- Below something else than a directory `add_file` stops. -/
theorem addFile_of_not_listed {group : SharingGroup} {path : FilePath}
    {dirId : Int} (walk : Walk files group.rootDirId path.split dirId)
    (unlisted : files.observe SharingFile.list dirId = none)
    (fileId : Int) :
    ∃ fault, group.addFile path fileId files = (.error fault, files) := by
  have resolved : group.getFileId files path = .ok dirId :=
    getFileIdFrom_of_walk walk
  simp only [SharingGroup.addFile, Action.bind_apply, Action.check_apply,
    resolved]
  cases got : files.getFile dirId with
  | error fault => exact ⟨fault, rfl⟩
  | ok file =>
      have notDirectory : file.fileType ≠ .directory := by
        have other := body_of_not_listed unlisted got
        unfold SharingFile.fileType
        cases body : file.body with
        | directory fileList => exact absurd body (other fileList)
        | generalFile storageFileId => simp
        | storageFile nodeId useCounting => simp
      simp only [Action.throwIf, notDirectory, ne_eq, not_false_eq_true,
        if_true, Action.throw_apply]
      exact ⟨_, rfl⟩

/-- The entry that `directory_path` leads to, for a path that leads
nowhere. -/
structure UploadsTo (files : SharingFileManager) (group : SharingGroup)
    (path : FilePath) (dirId : Int) : Prop where
  walk : Walk files group.rootDirId
    (FilePath.ofText path.directoryPath).split dirId
  valid : dirId ≠ invalidId
  absent : group.getFileId files path = .ok invalidId

end SharingFileManager

open SharingFileManager

/-- What the registration of a file does to the table: it enters the file in
a directory or, when there is none at the place, leaves it without one. -/
inductive Registered (files : SharingFileManager) (group : SharingGroup)
    (path : FilePath) : SharingFileManager → Prop
  | listed {dirId fileList} (uploads : UploadsTo files group path dirId)
      (directory : files.observe SharingFile.list dirId = some fileList) :
      Registered files group path
        ((files.addUpload path.filename group.nodeId).pushFile dirId
          (files.nextId + 1))
  | loose {dirId} (uploads : UploadsTo files group path dirId)
      (unlisted : files.observe SharingFile.list dirId = none) :
      Registered files group path
        (files.addUpload path.filename group.nodeId)

/-- The registration enters its file in a directory. -/
inductive Entered (files : SharingFileManager) (group : SharingGroup)
    (path : FilePath) : SharingFileManager → Prop
  | entered {dirId fileList} (uploads : UploadsTo files group path dirId)
      (directory : files.observe SharingFile.list dirId = some fileList) :
      Entered files group path
        ((files.addUpload path.filename group.nodeId).pushFile dirId
          (files.nextId + 1))

theorem Entered.registered {files later : SharingFileManager}
    {group : SharingGroup} {path : FilePath}
    (entered : Entered files group path later) :
    Registered files group path later := by
  cases entered with
  | entered uploads directory => exact .listed uploads directory

theorem walk_of_existPath {files : SharingFileManager}
    {group : SharingGroup} {path : FilePath}
    (present : group.existPath files path = .ok true) :
    ∃ fileId, fileId ≠ invalidId ∧
      Walk files group.rootDirId path.split fileId := by
  unfold SharingGroup.existPath at present
  cases resolved : group.getFileId files path with
  | error fault =>
      rw [resolved] at present
      cases present
  | ok fileId =>
      rw [resolved] at present
      have valid : fileId ≠ invalidId := by
        simpa [Except.map] using present
      exact ⟨fileId, valid, walk_of_getFileIdFrom resolved valid⟩

theorem getFileId_of_not_existPath {files : SharingFileManager}
    {group : SharingGroup} {path : FilePath}
    (absent : group.existPath files path = .ok false) :
    group.getFileId files path = .ok invalidId := by
  unfold SharingGroup.existPath at absent
  cases resolved : group.getFileId files path with
  | error fault =>
      rw [resolved] at absent
      cases absent
  | ok fileId =>
      rw [resolved] at absent
      simpa [Except.map] using absent

/-- The groups stay, and the table changes as described. -/
structure FilesChange (before : Server)
    (changes : SharingFileManager → Prop) (later : Server) : Prop where
  groups : later.groups = before.groups
  files : changes later.files

/-- What the registration of a file does to the managers; it returns after
the file was entered in a directory. -/
theorem registerPutFile_files {before : Server} {roots : Int → Prop}
    (shape : Shape roots before.files) (user : User) (group : SharingGroup)
    (request : ReqPutFileSession) :
    Action.Ensures (registerPutFile user group request) before
      (fun _ => FilesChange before (Entered before.files group
        (FilePath.ofText request.filePath)))
      (fun _ => FilesChange before fun files => files = before.files ∨
        Registered before.files group (FilePath.ofText request.filePath)
          files) := by
  simp only [registerPutFile, Action.ensures_bind, Action.ensures_check,
    Action.ensures_throwIf, Server.onFiles, Server.onSessions,
    Action.ensures_zoom]
  refine ⟨fun directory directoryChecked => ⟨fun _ => ⟨rfl, Or.inl rfl⟩,
    fun present => ⟨fun path pathChecked => ⟨fun _ => ⟨rfl, Or.inl rfl⟩,
      fun absent => ?_⟩, fun _ _ => ⟨rfl, Or.inl rfl⟩⟩⟩,
    fun _ _ => ⟨rfl, Or.inl rfl⟩⟩
  rw [Bool.not_eq_false] at present
  rw [Bool.not_eq_true] at absent
  subst present absent
  obtain ⟨dirId, valid, walk⟩ := walk_of_existPath directoryChecked
  have uploads : UploadsTo before.files group
      (FilePath.ofText request.filePath) dirId :=
    ⟨walk, valid, getFileId_of_not_existPath pathChecked⟩
  have still := (shape.extends_addUpload
    (FilePath.ofText request.filePath).filename group.nodeId).walk walk
  refine Action.ensures_of_ok (shape.registerStorage_eq _ _) ?_
  refine Action.ensures_of_ok (shape.registerGeneral_eq _ _) ?_
  cases directory : before.files.observe SharingFile.list dirId with
  | none =>
      have unlisted : (before.files.addUpload
          (FilePath.ofText request.filePath).filename
            group.nodeId).observe SharingFile.list dirId = none := by
        rw [observe_addUpload, directory]
        split
        · rfl
        · split <;> rfl
      obtain ⟨fault, stopped⟩ := addFile_of_not_listed still unlisted
        (before.files.nextId + 1)
      exact (Action.ensures_iff_of_error stopped).mpr
        ⟨rfl, Or.inr (.loose uploads directory)⟩
  | some fileList =>
      have listed := shape.observe_addUpload_of_some
        (FilePath.ofText request.filePath).filename group.nodeId directory
      refine Action.ensures_of_ok (addFile_eq still listed _) ?_
      have entered := Entered.entered uploads directory
      refine Action.ensures_of_forall ?_
        fun _ _ => ⟨rfl, Or.inr entered.registered⟩
      intro sessionId sessions
      exact ⟨fun _ _ => ⟨rfl, entered⟩,
        fun _ _ => ⟨rfl, Or.inr entered.registered⟩⟩

/-- What a session request does to the files: it uses a session again, or
registers a file. -/
theorem putSession_enters {before : Server} {roots : Int → Prop}
    (shape : Shape roots before.files) (user : User) (group : SharingGroup)
    (request : ReqPutFileSession) :
    Action.Ensures (putSession user group request) before
      (fun session => FilesChange before fun files =>
        ((FileSessionManager.findPutSessionOf user.userId request.groupId
            request.filePath before.sessions).1 = .ok (some session) ∧
          request.maxFragment = session.maxFragment ∧
            files = before.files) ∨
        (FileSessionManager.findPutSessionOf user.userId request.groupId
            request.filePath before.sessions).1 = .ok none ∧
          Entered before.files group (FilePath.ofText request.filePath)
            files)
      (fun _ => FilesChange before fun files => files = before.files ∨
        (FileSessionManager.findPutSessionOf user.userId request.groupId
            request.filePath before.sessions).1 = .ok none ∧
          Registered before.files group (FilePath.ofText request.filePath)
            files) := by
  simp only [putSession, Action.ensures_bind]
  unfold Server.onSessions
  rw [Action.ensures_zoom]
  refine (Action.ensures_self _ _).mono ?_ fun _ _ _ => ⟨rfl, Or.inl rfl⟩
  intro found sessions looked
  rw [looked]
  cases found with
  | some session =>
      simp only [Action.ensures_bind, Action.ensures_throwIf,
        Action.ensures_pure]
      exact ⟨fun _ => ⟨rfl, Or.inl rfl⟩, fun sameMax =>
        ⟨rfl, Or.inl ⟨trivial, not_not.mp sameMax, rfl⟩⟩⟩
  | none =>
      refine (@registerPutFile_files { before with sessions := sessions }
        roots shape user group request).mono ?_ ?_
      · exact fun _ _ changed =>
          ⟨changed.groups, Or.inr ⟨rfl, changed.files⟩⟩
      · exact fun _ _ changed =>
          ⟨changed.groups, changed.files.imp_right fun registered =>
            ⟨rfl, registered⟩⟩

/-- What a session request does to the managers: without a session to use
again it may register a file. -/
theorem putSession_files {before : Server} {roots : Int → Prop}
    (shape : Shape roots before.files) (user : User) (group : SharingGroup)
    (request : ReqPutFileSession) :
    FilesChange before (fun files => files = before.files ∨
        (FileSessionManager.findPutSessionOf user.userId request.groupId
            request.filePath before.sessions).1 = .ok none ∧
          Registered before.files group (FilePath.ofText request.filePath)
            files)
      ((putSession user group request).after before) := by
  refine Action.ensures_after.mp ?_
  refine (putSession_enters shape user group request).mono ?_
    fun _ _ changed => changed
  intro session later changed
  refine ⟨changed.groups, ?_⟩
  rcases changed.files with ⟨-, -, same⟩ | ⟨noSession, entered⟩
  · exact Or.inl same
  · exact Or.inr ⟨noSession, entered.registered⟩

/-- A registration passes the checks of the request. -/
theorem uploads_of_uploadsTo {server : Server} {user : User}
    {group : SharingGroup} {request : ReqPutFileSession} {dirId : Int}
    (noSession : (FileSessionManager.findPutSessionOf user.userId
      request.groupId request.filePath server.sessions).1 = .ok none)
    (uploads : UploadsTo server.files group
      (FilePath.ofText request.filePath) dirId) :
    Uploads server user group request := by
  have resolved : group.getFileId server.files (FilePath.ofText
      (FilePath.ofText request.filePath).directoryPath) = .ok dirId :=
    getFileIdFrom_of_walk uploads.walk
  refine ⟨noSession, ?_, ?_⟩
  · simp [SharingGroup.existPath, resolved, Except.map, uploads.valid]
  · simp [SharingGroup.existPath, uploads.absent, Except.map]

end ResourceServer
end Spaceless
