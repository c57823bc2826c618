import Spaceless.ResourceServer.Arrangement

/-!
# Subtrees that are removed

Removing an entry takes away what is reached only through it exactly when the
entry lists nothing; the entries below a directory stay in the table without
a path to them.  As long as no directory with entries is removed and every
upload finds a directory, every entry is reached from the root of a group.
-/

namespace Spaceless
namespace ResourceServer

open Logic Foundation Protocol SharingFileManager

namespace SharingFileManager

variable {files : SharingFileManager} {roots : Int → Prop}

/-- All entries, with the entries and storage files that they refer to. -/
def entries (files : SharingFileManager) : Hierarchy Int where
  live := fun fileId => ∃ file, files.findFile fileId = some file
  children := fun fileId =>
    ((files.findFile fileId).map fun file => file.body.references).getD []

/-- The entry is no directory with entries. -/
def Empty (files : SharingFileManager) (fileId : Int) : Prop :=
  ∀ fileList, files.observe SharingFile.list fileId = some fileList →
    fileList = []

theorem child_entries {parent child : Int} :
    files.entries.Child parent child ↔
      files.hierarchy.Child parent child ∨
        files.observe SharingFile.storage parent = some child := by
  simp only [Hierarchy.Child, entries, hierarchy, observe]
  cases files.findFile parent with
  | none => simp
  | some file =>
      obtain ⟨fileName, body⟩ := file
      cases body with
      | directory fileList =>
          simp [FileBody.references, SharingFile.list, SharingFile.storage]
      | generalFile storageFileId =>
          simp [FileBody.references, SharingFile.list, SharingFile.storage,
            eq_comm]
      | storageFile nodeId useCounting =>
          simp [FileBody.references, SharingFile.list, SharingFile.storage]

theorem reached_entries {fileId : Int}
    (reached : files.hierarchy.Reached roots fileId) :
    files.entries.Reached roots fileId :=
  reached.mono (fun _ _ listed => child_entries.mpr (Or.inl listed))
    fun _ isRoot => isRoot

namespace Shape

variable (shape : Shape roots files)

include shape

theorem entries_unique {first second child : Int}
    (firstListed : files.entries.Child first child)
    (secondListed : files.entries.Child second child) : first = second := by
  have apart {parent other : Int} (listed : files.hierarchy.Child parent child)
      (leads : files.observe SharingFile.storage other = some child) :
      False := by
    obtain ⟨-, file, found, place⟩ := shape.arranged.live parent child listed
    have shows := shape.place_of_storage leads
    rw [observe_of_findFile found] at shows
    exact shows place
  rcases child_entries.mp firstListed with firstBelow | firstLeads <;>
    rcases child_entries.mp secondListed with secondBelow | secondLeads
  · exact shape.arranged.unique first second child firstBelow secondBelow
  · exact absurd (apart firstBelow secondLeads) id
  · exact absurd (apart secondBelow firstLeads) id
  · exact shape.separate first second child firstLeads secondLeads

theorem entries_notRoot {parent child : Int}
    (listed : files.entries.Child parent child) : ¬roots child := by
  intro isRoot
  rcases child_entries.mp listed with below | leads
  · exact shape.arranged.notRoot parent child below isRoot
  · exact shape.rootLists child isRoot
      (list_of_place (shape.place_of_storage leads))

/-- Storage files refer to nothing. -/
theorem children_of_storage {fileId storageFileId : Int}
    (leads : files.observe SharingFile.storage fileId =
      some storageFileId) : files.entries.children storageFileId = [] := by
  obtain ⟨⟨storageName, body⟩, found, counts⟩ :=
    findFile_of_observe (shape.stored fileId storageFileId leads)
  cases body with
  | directory fileList => cases counts
  | generalFile other => cases counts
  | storageFile nodeId useCounting => simp [entries, found, FileBody.references]

end Shape

/-! ## One removal -/

section Removal

variable {group : SharingGroup} {path : FilePath} {parentId target : Int}
  {fileList : List Int}

theorem removes_of_ok {later : SharingFileManager}
    (ran : group.removePath path files = (.ok (), later)) :
    ∃ parentId target fileList,
      Removes files group path parentId target fileList := by
  cases walked : SharingGroup.walkToRemove files group.rootDirId
      group.rootDirId path.split with
  | error fault =>
      simp only [SharingGroup.removePath, Action.bind_apply,
        Action.check_apply, walked] at ran
      cases ran
  | ok found =>
      obtain ⟨parentId, target⟩ := found
      by_cases isRoot : target = group.rootDirId
      · simp only [SharingGroup.removePath, Action.bind_apply,
          Action.check_apply, walked, Action.throwIf, isRoot, if_true,
          Action.throw_apply] at ran
        cases ran
      · obtain ⟨fileList, removes⟩ := removes_of_walked walked isRoot
        exact ⟨parentId, target, fileList, removes⟩

theorem Removes.child
    (removes : Removes files group path parentId target fileList) :
    files.hierarchy.Child parentId target :=
  child_of_list removes.listed removes.present

variable (shape : Shape roots files)
  (removes : Removes files group path parentId target fileList)

include shape removes

theorem Shape.findFile_removed_target {node : Int}
    (taken : node = target ∨
      files.observe SharingFile.storage target = some node) :
    ((files.eraseEntry target).removeFrom parentId target).findFile node =
      none := by
  have different := shape.arranged.ne removes.child
  obtain ⟨fileName, found⟩ := observe_list_eq_some.mp
    (shape.list_eraseEntry removes.listed different)
  have elsewhere : parentId ≠ node := by
    rintro rfl
    rcases taken with same | leads
    · exact different same
    · have unlisted := list_of_place (shape.place_of_storage leads)
      rw [removes.listed] at unlisted
      cases unlisted
  rw [findFile_removeFrom target found, if_neg elsewhere,
    findFile_eraseEntry, if_pos (taken.imp_left Eq.symm)]

/-- A removal takes away what is reached only through the entry exactly when
the entry lists nothing. -/
theorem Shape.removed_subtree_iff (isRoot : roots group.rootDirId) :
    (∀ node, files.entries.OnlyThrough roots target node →
      ((files.eraseEntry target).removeFrom parentId target).findFile node =
        none) ↔ Empty files target := by
  constructor
  · intro gone entries listed
    cases entries with
    | nil => rfl
    | cons child rest =>
        exfalso
        have below : files.hierarchy.Child target child :=
          child_of_list listed List.mem_cons_self
        have reached := reached_entries
          ⟨group.rootDirId, isRoot, removes.walk.reaches⟩
        have listed := child_entries.mpr (Or.inl below)
        have only := Hierarchy.onlyThrough_of_child reached listed
          (shape.entries_notRoot listed)
          fun parent other => shape.entries_unique other listed
        have same := shape.name_removed removes.listed removes.present
          (shape.arranged.live target child below).2
          (shape.arranged.ne below).symm
        obtain ⟨-, file, found, -⟩ := shape.arranged.live target child below
        rw [name, gone child only, name, found] at same
        cases same
  · intro empty node only
    apply shape.findFile_removed_target removes
    have shallow (child : Int) (listed : files.entries.Child target child) :
        files.entries.children child = [] := by
      rcases child_entries.mp listed with below | leads
      · obtain ⟨entries, before, present⟩ := list_of_child below
        rw [empty entries before] at present
        cases present
      · exact shape.children_of_storage leads
    rcases only.1.around shallow with same | listed | around
    · exact Or.inl same
    · refine Or.inr ((child_entries.mp listed).resolve_left ?_)
      intro below
      obtain ⟨entries, before, present⟩ := list_of_child below
      rw [empty entries before] at present
      cases present
    · exact absurd around only.2

end Removal

/-! ## Attached entries -/

/-- Every storage file belongs to a general file. -/
def Used (files : SharingFileManager) : Prop :=
  ∀ storageFileId place,
    files.observe SharingFile.place storageFileId = some place →
    ∃ fileId, files.observe SharingFile.storage fileId = some storageFileId

/-- A new directory brings no storage file. -/
theorem Used.addDirectory (used : Used files) (shape : Shape roots files)
    (fileName : Text) :
    Used (files.addEntry { fileName := fileName, body := .directory [] }) := by
  intro storageFileId place shows
  rw [observe_addEntry] at shows
  split at shows
  · cases shows
  · obtain ⟨fileId, leads⟩ := used storageFileId place shows
    exact ⟨fileId, shape.observe_addEntry_of_some _ leads⟩

theorem Used.addUpload (used : Used files) (shape : Shape roots files)
    (fileName : Text) (nodeId : Int) :
    Used (files.addUpload fileName nodeId) := by
  intro storageFileId place shows
  rw [observe_addUpload] at shows
  split at shows
  · cases shows
  · split at shows
    · rename_i new
      refine ⟨files.nextId + 1, ?_⟩
      rw [observe_addUpload, if_pos rfl, ← new]
      rfl
    · obtain ⟨fileId, leads⟩ := used storageFileId place shows
      exact ⟨fileId, shape.observe_addUpload_of_some _ _ leads⟩

theorem Used.pushFile (used : Used files) {directoryId : Int}
    {fileList : List Int}
    (listed : files.observe SharingFile.list directoryId = some fileList)
    (fileId : Int) : Used (files.pushFile directoryId fileId) := by
  intro storageFileId place shows
  rw [observe_pushFile_of_blind fileId listed fun _ _ => rfl] at shows
  obtain ⟨user, leads⟩ := used storageFileId place shows
  refine ⟨user, ?_⟩
  rw [observe_pushFile_of_blind fileId listed fun _ _ => rfl]
  exact leads

/-- Directories and general files are reached from the roots, and storage
files belong to general files. -/
structure Attached (roots : Int → Prop) (files : SharingFileManager) :
    Prop where
  covered : files.hierarchy.Covered roots
  used : Used files

namespace Attached

variable {later : SharingFileManager}

theorem entries (attached : Attached roots files) :
    files.entries.Covered roots := by
  rintro fileId ⟨file, found⟩
  cases place : file.place with
  | none =>
      exact reached_entries (attached.covered fileId ⟨file, found, place⟩)
  | some shown =>
      obtain ⟨owner, leads⟩ := attached.used fileId shown
        ((observe_of_findFile found).trans place)
      obtain ⟨⟨ownerName, body⟩, ownerFound, ownerShows⟩ :=
        findFile_of_observe leads
      have live : files.hierarchy.live owner := by
        refine ⟨_, ownerFound, ?_⟩
        cases body with
        | directory fileList => cases ownerShows
        | generalFile other => rfl
        | storageFile nodeId useCounting => cases ownerShows
      exact (reached_entries (attached.covered owner live)).child
        (child_entries.mpr (Or.inr leads))

theorem addRoot (attached : Attached roots files)
    (shape : Shape roots files) (fileName : Text) :
    Attached (fun fileId => fileId = files.nextId ∨ roots fileId)
      (files.addEntry { fileName := fileName, body := .directory [] }) := by
  refine ⟨?_, attached.used.addDirectory shape fileName⟩
  rw [hierarchy_addDirectory (shape.fresh _ (Int.le_refl _))]
  exact attached.covered.plant (Or.inl rfl) fun _ => Or.inr

theorem makesDirectory (attached : Attached roots files)
    (shape : Shape roots files) (makes : MakesDirectory files later) :
    Attached roots later := by
  obtain ⟨dirName, listed, absent⟩ := makes
  have still := shape.observe_addEntry_of_some
    { fileName := dirName, body := .directory [] } listed
  refine ⟨?_, (attached.used.addDirectory shape dirName).pushFile still _⟩
  rw [hierarchy_pushFile still,
    hierarchy_addDirectory (shape.fresh _ (Int.le_refl _))]
  exact attached.covered.grow (live_of_list listed)

theorem makesDirectories (attached : Attached roots files)
    (shape : Shape roots files)
    (makes : Relation.ReflTransGen MakesDirectory files later) :
    Attached roots later := by
  induction makes with
  | refl => exact attached
  | tail before step inductionHypothesis =>
      exact inductionHypothesis.makesDirectory
        (shape.makesDirectories before) step

theorem upload (attached : Attached roots files)
    (shape : Shape roots files) (fileName : Text) (nodeId : Int)
    {directoryId : Int} {fileList : List Int}
    (listed : files.observe SharingFile.list directoryId = some fileList) :
    Attached roots ((files.addUpload fileName nodeId).pushFile directoryId
      (files.nextId + 1)) := by
  have still := shape.observe_addUpload_of_some fileName nodeId listed
  refine ⟨?_,
    (attached.used.addUpload shape fileName nodeId).pushFile still _⟩
  rw [hierarchy_pushFile still, hierarchy_addUpload shape.fresh]
  exact attached.covered.grow (live_of_list listed)

/-- A removal of an entry that lists nothing. -/
theorem removed (attached : Attached roots files)
    (shape : Shape roots files) {parentId target : Int}
    {fileList : List Int}
    (listed : files.observe SharingFile.list parentId = some fileList)
    (present : target ∈ fileList) (empty : Empty files target) :
    Attached roots
      ((files.eraseEntry target).removeFrom parentId target) := by
  have different := shape.arranged.ne (child_of_list listed present)
  have still := shape.list_eraseEntry listed different
  constructor
  · rw [hierarchy_removed listed different fun _ leads =>
      shape.place_of_storage leads]
    apply attached.covered.prune
    cases entries : files.observe SharingFile.list target with
    | none => simp only [hierarchy, entries, Option.getD_none]
    | some inside => rw [children_of_list entries, empty inside entries]
  · intro storageFileId place shows
    rw [observe_removeFrom_of_blind target still fun _ _ => rfl,
      observe_eraseEntry] at shows
    split at shows
    · cases shows
    · rename_i kept
      obtain ⟨user, leads⟩ := attached.used storageFileId place shows
      refine ⟨user, ?_⟩
      rw [observe_removeFrom_of_blind target still fun _ _ => rfl]
      apply shape.storage_eraseEntry leads
      rintro rfl
      exact kept (Or.inr leads)

end Attached

end SharingFileManager

/-! ## Runs -/

/-- The removal of a path succeeds; the path leads to the target. -/
structure Removal (server : Server) (group : SharingGroup)
    (path : FilePath) (target : Int) (later : SharingFileManager) :
    Prop where
  found : ∃ groupId, server.groups.findGroup groupId = some group
  ran : group.removePath path server.files = (.ok (), later)
  resolved : group.getFileId server.files path = .ok target

/-- A path that leads to an entry to take out is removed. -/
theorem SharingFileManager.Removes.removal {server : Server}
    {roots : Int → Prop} (shape : Shape roots server.files)
    {groupId : Int} {group : SharingGroup}
    (found : server.groups.findGroup groupId = some group)
    {path : FilePath} {parentId target : Int} {fileList : List Int}
    (removes : Removes server.files group path parentId target fileList) :
    Removal server group path target
      ((server.files.eraseEntry target).removeFrom parentId target) :=
  ⟨⟨groupId, found⟩, shape.removePath_eq removes,
    getFileIdFrom_of_walk removes.walk⟩

/-- All that was reached only through the target is gone. -/
def SubtreeGone (server : Server) (target : Int)
    (later : SharingFileManager) : Prop :=
  ∀ fileId, server.files.entries.OnlyThrough server.groups.IsRoot target
    fileId → later.findFile fileId = none

/-- If the event removes an entry, the entry lists nothing; if it registers a
file, it does so in a directory. -/
def KeepsAttached (worker : ServerWorker) (event : ServerEvent) : Prop :=
  match event with
  | .worker (.receive _ connId _ package) =>
      worker.waitingTransaction package = none →
      (∀ groupId path force user group target later,
        package.content = some (.reqRemovePath groupId path force) →
        Manages worker.app connId groupId user group →
        Removal worker.app group (FilePath.ofText path) target later →
        Empty worker.app.files target) ∧
      (package.command = 1027 → ∀ request user group,
        package.content = some (.reqPutFileSession request) →
        Manages worker.app connId request.groupId user group →
        Uploads worker.app user group request →
        ∀ dirId, group.getFileId worker.app.files (FilePath.ofText
            (FilePath.ofText request.filePath).directoryPath) = .ok dirId →
          worker.app.files.observe SharingFile.list dirId ≠ none)
  | _ => True

variable {messageSize : Message → Nat}

theorem subtreeGone_iff {server : Server} {group : SharingGroup}
    {path : FilePath} {target : Int} {later : SharingFileManager}
    (shape : Shape server.groups.IsRoot server.files)
    (removal : Removal server group path target later) :
    SubtreeGone server target later ↔ Empty server.files target := by
  obtain ⟨parentId, entry, fileList, removes⟩ := removes_of_ok removal.ran
  obtain ⟨groupId, found⟩ := removal.found
  have ran := removal.ran
  rw [shape.removePath_eq removes] at ran
  have resolved := removal.resolved
  have same : group.getFileId server.files path = .ok entry :=
    getFileIdFrom_of_walk removes.walk
  rw [same] at resolved
  cases ran
  cases resolved
  exact shape.removed_subtree_iff removes ⟨groupId, group, found, rfl⟩

theorem Attached.treeStep {worker : ServerWorker}
    {event : Worker.Event Message ServerCall} {roots : Int → Prop}
    {files : SharingFileManager}
    (attached : Attached worker.app.groups.IsRoot worker.app.files)
    (shape : Shape worker.app.groups.IsRoot worker.app.files)
    (keeps : KeepsAttached worker (.worker event))
    (step : TreeStep worker.app (eventSource worker event) roots files) :
    Attached roots files := by
  generalize source : eventSource worker event = who at step
  cases step with
  | same => exact attached
  | group groupName => exact attached.addRoot shape groupName
  | created path content manages makes =>
      exact attached.makesDirectories shape makes
  | @removed connId package groupId user group parentId target fileList path
      force content manages removes =>
      obtain ⟨starts, now, serviceId, rfl⟩ := eventSource_eq_request source
      have removal := removes.removal shape manages.found
      exact attached.removed shape removes.listed removes.present
        ((keeps starts).1 _ _ _ _ _ _ _ content manages removal)
  | @registered connId package user group files request command content
      manages noSession registered =>
      obtain ⟨starts, now, serviceId, rfl⟩ := eventSource_eq_request source
      cases registered with
      | listed uploads directory => exact attached.upload shape _ _ directory
      | loose uploads unlisted =>
          refine absurd unlisted ((keeps starts).2 command request user group
            content manages (uploads_of_uploadsTo noSession uploads) _ ?_)
          exact getFileIdFrom_of_walk uploads.walk

theorem attached_init :
    Attached SharingGroupManager.init.IsRoot SharingFileManager.init := by
  constructor
  · rintro fileId ⟨file, found, -⟩
    simp [SharingFileManager.init, findFile] at found
  · intro storageFileId place shows
    simp [SharingFileManager.init, observe, findFile] at shows

/-- In a run that removes no directory with entries and whose uploads find
directories, every entry is reached from the root of a group; in its states
a removal takes the whole subtree away exactly when the target lists
nothing. -/
theorem covered_throughout {events : List ServerEvent}
    (keeps : (serverMachine messageSize).StepsMeet KeepsAttached events) :
    (serverMachine messageSize).Throughout (fun worker =>
      worker.app.files.entries.Covered worker.app.groups.IsRoot ∧
      ∀ group path target later,
        Removal worker.app group path target later →
        (SubtreeGone worker.app target later ↔
          Empty worker.app.files target)) events := by
  have attached : (serverMachine messageSize).Throughout (fun worker =>
      Attached worker.app.groups.IsRoot worker.app.files) events := by
    refine kept_throughout
      (fun groups files => Attached groups.IsRoot files) KeepsAttached
      attached_init ?_ keeps
    intro worker event later reachable attached keepsEvent stepped
    exact Attached.treeStep attached (shape_of_reachable reachable) keepsEvent
      (treeStep_of_step reachable stepped)
  intro first second split worker reaches
  refine ⟨(attached first second split worker reaches).entries, ?_⟩
  intro group path target later removal
  exact subtreeGone_iff (shape_of_reachable ⟨first, reaches⟩) removal

/-! ## Runs with removals -/

/-- The server after the upload of `f`. -/
def fileWorker : ServerWorker :=
  (((serverMachine fun _ => 0).run (serverMachine fun _ => 0).start
    uploadEvents).get (by decide +kernel))

theorem fileWorker_reaches :
    (serverMachine fun _ => 0).Reaches uploadEvents fileWorker :=
  (Option.some_get _).symm

/-- The file is removed again. -/
def removeEvents : List ServerEvent :=
  uploadEvents ++ [clientRequest 5 (.reqRemovePath 1 ['f'] false)]

theorem removeEvents_keepsAttached :
    (serverMachine fun _ => 0).StepsMeet KeepsAttached removeEvents := by
  have group : openedWorker.app.groups.findGroup 1 =
      some (SharingGroup.init 1 ['g'] 1 1 1) := by decide +kernel
  have sameGroup : fileWorker.app.groups.findGroup 1 =
      some (SharingGroup.init 1 ['g'] 1 1 1) := by decide +kernel
  refine Machine.StepsMeet.snoc (Machine.StepsMeet.snoc
    (Machine.StepsMeet.of_forall ?_) ?_) ?_
  · intro event opens worker
    simp only [openingEvents, clientRequest, List.mem_cons,
      List.not_mem_nil, or_false] at opens
    rcases opens with rfl | rfl | rfl | rfl <;> simp [KeepsAttached]
  · intro worker reaches starts
    obtain rfl := reaches.unique openedWorker_reaches
    refine ⟨by simp, ?_⟩
    rintro - request user changed content manages - dirId resolved
    cases content
    obtain rfl := Option.some_inj.mp (manages.found.symm.trans group)
    have root : (SharingGroup.init 1 ['g'] 1 1 1).getFileId
        openedWorker.app.files (FilePath.ofText
          (FilePath.ofText ['f']).directoryPath) = .ok 1 := by decide +kernel
    rw [root] at resolved
    cases resolved
    decide +kernel
  · intro worker reaches starts
    obtain rfl := reaches.unique fileWorker_reaches
    refine ⟨?_, by simp [Message.command]⟩
    intro groupId path force user changed target later content manages
      removal
    cases content
    obtain rfl := Option.some_inj.mp (manages.found.symm.trans sameGroup)
    have file : (SharingGroup.init 1 ['g'] 1 1 1).getFileId
        fileWorker.app.files (FilePath.ofText ['f']) = .ok 3 := by
      decide +kernel
    have resolved := removal.resolved
    rw [file] at resolved
    cases resolved
    have unlisted : fileWorker.app.files.observe SharingFile.list 3 =
        none := by decide +kernel
    intro fileList listed
    rw [unlisted] at listed
    cases listed

theorem covered_after_removal :
    (serverMachine fun _ => 0).Throughout (fun worker =>
      worker.app.files.entries.Covered worker.app.groups.IsRoot ∧
      ∀ group path target later,
        Removal worker.app group path target later →
        (SubtreeGone worker.app target later ↔
          Empty worker.app.files target)) removeEvents :=
  covered_throughout removeEvents_keepsAttached

/-- The server after the removal of the directory `d` with its file. -/
def removedWorker : ServerWorker :=
  (((serverMachine fun _ => 0).run (serverMachine fun _ => 0).start
    (sameNameEvents ++ [clientRequest 5 (.reqRemovePath 1 ['d'] true)])).get
    (by decide +kernel))

/-- The directory goes, its file stays, and nothing leads to it. -/
theorem not_covered_always :
    (¬∀ worker : ServerWorker, (serverMachine fun _ => 0).Reachable worker →
      ∀ group path target later,
        Removal worker.app group path target later →
        SubtreeGone worker.app target later) ∧
    ¬∀ worker : ServerWorker, (serverMachine fun _ => 0).Reachable worker →
      worker.app.files.entries.Covered worker.app.groups.IsRoot := by
  constructor
  · intro always
    have reachable : (serverMachine fun _ => 0).Reachable uploadedWorker :=
      ⟨sameNameEvents, (Option.some_get _).symm⟩
    have succeeds : ((SharingGroup.init 1 ['g'] 1 1 1).removePath
        (FilePath.ofText ['d']) uploadedWorker.app.files).1 = .ok () := by
      decide +kernel
    have removal : Removal uploadedWorker.app
        (SharingGroup.init 1 ['g'] 1 1 1) (FilePath.ofText ['d']) 4
        (((SharingGroup.init 1 ['g'] 1 1 1).removePath
          (FilePath.ofText ['d'])).after uploadedWorker.app.files) :=
      ⟨⟨1, by decide +kernel⟩, Prod.ext succeeds (by rw [Action.after]),
        by decide +kernel⟩
    have empty := (subtreeGone_iff (shape_of_reachable reachable)
      removal).mp (always uploadedWorker reachable _ _ _ _ removal)
    exact absurd (empty [6] (by decide +kernel)) (by decide)
  · intro always
    have reachable : (serverMachine fun _ => 0).Reachable removedWorker :=
      ⟨_, (Option.some_get _).symm⟩
    have stored : (removedWorker.app.files.findFile 6).isSome := by
      decide +kernel
    obtain ⟨root, isRoot, path⟩ := always removedWorker reachable 6
      (Option.isSome_iff_exists.mp stored)
    rcases Relation.ReflTransGen.cases_tail path with rfl | ⟨last, -, listed⟩
    · exact (shape_of_reachable reachable).rootLists 6 isRoot
        (by decide +kernel)
    · have unlisted : ∀ entry ∈ removedWorker.app.files.fileList.toList,
          (6 : Int) ∉ entry.2.body.references := by decide +kernel
      unfold Hierarchy.Child SharingFileManager.entries at listed
      cases found : removedWorker.app.files.findFile last with
      | none => simp [found] at listed
      | some file =>
          simp only [found] at listed
          exact unlisted (last, file)
            (Std.ExtTreeMap.mem_toList_iff_getElem?_eq_some.mpr found) listed

end ResourceServer
end Spaceless
