import Spaceless.ResourceServer.Permission
import Spaceless.ResourceServer.PathOperation

/-!
# The arrangement of the file table

What every step of the server does to the roots and to the file table.  The
shape of the table then holds in every reachable state, so that listing and
removal do not fail half-way.
-/

namespace Spaceless
namespace ResourceServer

open Logic Foundation Protocol SharingFileManager

/-! ## Steps of the server -/

/-- The root directory of some group. -/
def SharingGroupManager.IsRoot (groups : SharingGroupManager)
    (fileId : Int) : Prop :=
  ∃ groupId group, groups.findGroup groupId = some group ∧
    group.rootDirId = fileId

/-- What a step does to the roots and to the file table. -/
inductive TreeStep (before : Server) :
    Source → (Int → Prop) → SharingFileManager → Prop
  | same {source} : TreeStep before source before.groups.IsRoot before.files
  | group {source} (groupName : Text) :
      TreeStep before source
        (fun fileId => fileId = before.files.nextId ∨
          before.groups.IsRoot fileId)
        (before.files.addEntry
          { fileName := groupName, body := .directory [] })
  | created {connId package groupId user group files} (path : Text)
      (content : package.content = some (.reqCreatePath groupId path))
      (manages : Manages before connId groupId user group)
      (makes : Relation.ReflTransGen MakesDirectory before.files files) :
      TreeStep before (.request connId package) before.groups.IsRoot files
  | removed {connId package groupId user group parentId target fileList}
      (path : Text) (force : Bool)
      (content : package.content = some (.reqRemovePath groupId path force))
      (manages : Manages before connId groupId user group)
      (removes : Removes before.files group (FilePath.ofText path) parentId
        target fileList) :
      TreeStep before (.request connId package) before.groups.IsRoot
        ((before.files.eraseEntry target).removeFrom parentId target)
  | registered {connId package user group files}
      (request : ReqPutFileSession) (command : package.command = 1027)
      (content : package.content = some (.reqPutFileSession request))
      (manages : Manages before connId request.groupId user group)
      (noSession : (FileSessionManager.findPutSessionOf user.userId
        request.groupId request.filePath before.sessions).1 = .ok none)
      (registered : Registered before.files group
        (FilePath.ofText request.filePath) files) :
      TreeStep before (.request connId package) before.groups.IsRoot files

section Steps

variable {before after : Server} {source : Source}

namespace SharingGroupManager

variable {groups : SharingGroupManager} {groupId : Int}
  {group changed : SharingGroup}

theorem findGroup_setGroup (other : Int) :
    (groups.setGroup groupId changed).findGroup other =
      if groupId = other then some changed else groups.findGroup other :=
  Table.lookup_insert _ _ _ _

theorem isRoot_setGroup (found : groups.findGroup groupId = some group)
    (place : group.SamePlace changed) :
    (groups.setGroup groupId changed).IsRoot = groups.IsRoot := by
  funext fileId
  apply propext
  constructor
  · rintro ⟨other, entry, present, isRoot⟩
    rw [findGroup_setGroup] at present
    split at present
    · cases present
      exact ⟨groupId, group, found, place.rootDirId ▸ isRoot⟩
    · exact ⟨other, entry, present, isRoot⟩
  · rintro ⟨other, entry, present, isRoot⟩
    by_cases same : groupId = other
    · subst same
      rw [found] at present
      cases present
      refine ⟨groupId, changed, ?_, place.rootDirId.trans isRoot⟩
      rw [findGroup_setGroup, if_pos rfl]
    · refine ⟨other, entry, ?_, isRoot⟩
      rw [findGroup_setGroup, if_neg same]
      exact present

theorem isRoot_addGroup (free : groups.findGroup groupId = none) :
    (groups.setGroup groupId group).IsRoot =
      fun fileId => fileId = group.rootDirId ∨ groups.IsRoot fileId := by
  funext fileId
  apply propext
  constructor
  · rintro ⟨other, entry, present, isRoot⟩
    rw [findGroup_setGroup] at present
    split at present
    · cases present
      exact Or.inl isRoot.symm
    · exact Or.inr ⟨other, entry, present, isRoot⟩
  · rintro (rfl | ⟨other, entry, present, isRoot⟩)
    · refine ⟨groupId, group, ?_, rfl⟩
      rw [findGroup_setGroup, if_pos rfl]
    · refine ⟨other, entry, ?_, isRoot⟩
      rw [findGroup_setGroup, if_neg]
      · exact present
      · rintro rfl
        rw [free] at present
        cases present

end SharingGroupManager

theorem StorageNodeManager.undefined_of_getFitNode
    {nodes : StorageNodeManager} {fault : Fault}
    (unfit : nodes.getFitNode = .error fault) : fault = .undefined := by
  unfold getFitNode at unfit
  split at unfit
  · cases unfit
  · split at unfit
    · cases unfit
      rfl
    · cases unfit

/-- Where a node is found, a new group comes with its root directory. -/
theorem registerGroup_files
    (shape : Shape before.groups.IsRoot before.files)
    (sound : Sound before) (userId : Int) (groupName : Text) :
    Action.Ensures (Server.registerGroup userId groupName) before
      (fun _ later =>
        TreeStep before source later.groups.IsRoot later.files)
      (fun fault later => fault ≠ .undefined →
        TreeStep before source later.groups.IsRoot later.files) := by
  simp only [Server.registerGroup, Server.onFiles, Server.onGroups,
    Server.onNodes, Action.ensures_bind, Action.ensures_read,
    Action.ensures_throwIf, Action.ensures_zoom, Action.ensures_check,
    Action.ensures_modify, Action.ensures_pure]
  refine ⟨fun _ _ => .same, fun _ => ?_⟩
  refine Action.ensures_of_ok
    (insertFile_eq (shape.fresh _ (Int.le_refl _)) _) ?_
  constructor
  · rintro ⟨nodeKey, fitNode⟩ -
    obtain ⟨owner, forest⟩ := sound.running
    have free : before.groups.findGroup before.groups.nextId = none := by
      cases found : before.groups.findGroup before.groups.nextId with
      | none => rfl
      | some group => exact absurd (forest.keyed _ _ found).2 (by omega)
    refine ⟨fun present => absurd free present, fun _ => ?_⟩
    have counted :
        SharingGroupManager.findGroup
          { before.groups with nextId := before.groups.nextId + 1 }
          before.groups.nextId = none := free
    rw [SharingGroupManager.isRoot_addGroup counted]
    exact .group groupName
  · intro fault unfit defined
    exact absurd (StorageNodeManager.undefined_of_getFitNode unfit) defined

theorem treeStep_of_change
    (shape : Shape before.groups.IsRoot before.files)
    (sound : Sound before) (change : Change before source after) :
    TreeStep before source after.groups.IsRoot after.files := by
  cases change with
  | same => exact .same
  | users changed => exact .same
  | nodes changed => exact .same
  | serialize => exact .same
  | registerGroup userId groupName defined =>
      have registered :=
        @registerGroup_files before source shape sound userId groupName
      unfold Action.after
      cases outcome : Server.registerGroup userId groupName before with
      | mk result later =>
          cases result with
          | ok groupId => exact registered.of_ok outcome
          | error fault =>
              refine registered.of_error outcome ?_
              rintro rfl
              rw [outcome] at defined
              exact defined rfl
  | roles acts target place permitted =>
      rw [SharingGroupManager.isRoot_setGroup acts.found place]
      exact .same
  | createPath path content manages =>
      exact .created path content manages (createPath_makes shape _ _)
  | @removePath connId package groupId user group path force content
      manages =>
      rcases shape.removePath_cases group (FilePath.ofText path) with
        same | ⟨parentId, target, fileList, removes, changed⟩
      · rw [same]
        exact .same
      · rw [changed]
        exact .removed path force content manages removes
  | @putSession connId package user group request command content
      manages =>
      have changed := putSession_files shape user group request
      rw [changed.groups]
      rcases changed.files with same | ⟨noSession, registered⟩
      · rw [same]
        exact .same
      · exact .registered request command content manages noSession
          registered
  | getSession filePath command content acts member general =>
      obtain ⟨sessions, changed⟩ := after_getSession before _ _ filePath
      rw [changed]
      exact .same
  | putFragment request command content login found own next => exact .same
  | removeSession sessionId => exact .same
  | putNodeSession sessionId nodeSessionId found => exact .same
  | getNodeSession sessionId nodeSessionId found => exact .same

theorem treeStep_of_changed
    (shape : Shape before.groups.IsRoot before.files)
    (sound : Sound before) (changed : Changed before source after) :
    TreeStep before source after.groups.IsRoot after.files := by
  induction changed with
  | change change => exact treeStep_of_change shape sound change
  | cleanUp _ _ inductionHypothesis => exact inductionHypothesis

theorem SharingFileManager.Shape.addRoot {files : SharingFileManager}
    {roots : Int → Prop} (shape : Shape roots files) (fileName : Text) :
    Shape (fun fileId => fileId = files.nextId ∨ roots fileId)
      (files.addEntry { fileName := fileName, body := .directory [] }) := by
  have added := shape.addDirectory fileName
  have hierarchy := hierarchy_addDirectory
    (shape.fresh files.nextId (Int.le_refl _)) fileName
  refine ⟨added.owned, ?_, ?_, added.stored, added.separate⟩
  · rw [hierarchy]
    refine (shape.arranged.plant files.nextId).changeRoots ?_ ?_
    · rintro root (new | isRoot)
      · exact Or.inl new
      · exact Or.inr (shape.arranged.roots root isRoot)
    · rintro root (rfl | isRoot) node listed
      · exact shape.unlisted (Int.le_refl _) listed
      · exact shape.arranged.notRoot node root listed isRoot
  · rintro root (rfl | isRoot)
    · rw [observe_addEntry, if_pos rfl]
      simp [SharingFile.list]
    · exact added.rootLists root isRoot

theorem SharingFileManager.Shape.makesDirectories
    {files later : SharingFileManager} {roots : Int → Prop}
    (shape : Shape roots files)
    (makes : Relation.ReflTransGen MakesDirectory files later) :
    Shape roots later := by
  induction makes with
  | refl => exact shape
  | tail _ step inductionHypothesis =>
      exact inductionHypothesis.makesDirectory step

theorem SharingFileManager.Shape.registered {files later : SharingFileManager}
    {roots : Int → Prop} {group : SharingGroup} {path : FilePath}
    (shape : Shape roots files)
    (registered : Registered files group path later) :
    Shape roots later := by
  cases registered with
  | listed uploads directory =>
      exact shape.change (.upload path.filename group.nodeId directory)
  | loose uploads unlisted => exact shape.addUpload _ _

theorem SharingFileManager.Shape.treeStep {roots : Int → Prop}
    {files : SharingFileManager}
    (shape : Shape before.groups.IsRoot before.files)
    (step : TreeStep before source roots files) : Shape roots files := by
  cases step with
  | same => exact shape
  | group groupName => exact shape.addRoot groupName
  | created path content manages makes => exact shape.makesDirectories makes
  | removed path force content manages removes =>
      exact shape.removed removes.listed removes.present
  | registered request command content manages noSession registered =>
      exact shape.registered registered

end Steps

/-! ## Runs -/

/-- The property holds of the running managers and of the saved ones. -/
structure Kept (property : SharingGroupManager → SharingFileManager → Prop)
    (server : Server) : Prop where
  running : property server.groups server.files
  saved : ∀ file, server.dataFile = some file →
    property (SharingGroupManager.deserialize file.groups)
      (SharingFileManager.deserialize file.files)

section Runs

variable {messageSize : Message → Nat}
  {property : SharingGroupManager → SharingFileManager → Prop}

theorem Kept.restart {server : Server} (kept : Kept property server)
    (atStart : property .init .init) (rest : Int → UninitializedUser) :
    Kept property (server.restart rest) := by
  unfold Server.restart
  cases stored : server.dataFile with
  | none => exact ⟨atStart, by simp [Server.init]⟩
  | some file =>
      have saved := kept.saved file stored
      refine ⟨saved, ?_⟩
      intro other same
      cases same
      exact saved

theorem Kept.changed {before after : Server} {source : Source}
    (kept : Kept property before) (sound : Sound before)
    (changed : Changed before source after)
    (running : property after.groups after.files) :
    Kept property after := by
  obtain ⟨owner, forest⟩ := sound.running
  refine ⟨running, ?_⟩
  intro file stored
  rcases (Effect.of_changed forest changed).dataFile with same | written
  · exact kept.saved file (same ▸ stored)
  · rw [written] at stored
    cases stored
    rw [SharingFileManager.deserialize_serialize,
      SharingGroupManager.deserialize_serialize fun groupId group found =>
        (forest.keyed groupId group found).1]
    exact kept.running

/-- What every step of the worker keeps, a restart keeps too. -/
theorem kept_throughout
    (property : SharingGroupManager → SharingFileManager → Prop)
    (condition : ServerWorker → ServerEvent → Prop)
    (atStart : property .init .init)
    (atStep : ∀ worker event later,
      (serverMachine messageSize).Reachable worker →
      property worker.app.groups worker.app.files →
      condition worker (.worker event) →
      Worker.step (program messageSize) worker event = some later →
      property later.app.groups later.app.files)
    {events : List ServerEvent}
    (meets : (serverMachine messageSize).StepsMeet condition events) :
    (serverMachine messageSize).Throughout
      (fun worker => property worker.app.groups worker.app.files)
      events := by
  have both : (serverMachine messageSize).Throughout
      (fun worker => (serverMachine messageSize).Reachable worker ∧
        Kept property worker.app) events := by
    refine meets.throughout ⟨⟨[], rfl⟩, atStart, by simp [serverMachine,
      Worker.init, Server.init]⟩ ?_
    rintro worker event later ⟨reachable, kept⟩ met stepped
    refine ⟨reachable.step stepped, ?_⟩
    cases event with
    | restart rest =>
        cases stepped
        exact kept.restart atStart rest
    | worker event =>
        exact kept.changed (Sound.of_reachable reachable)
          (step_changed stepped)
          (atStep worker event later reachable kept.running met stepped)
  intro first second split worker reaches
  exact (both first second split worker reaches).2.running

end Runs

theorem shape_init :
    Shape SharingGroupManager.init.IsRoot SharingFileManager.init := by
  have empty (fileId : Int) :
      SharingFileManager.init.findFile fileId = none := by
    simp [SharingFileManager.init, findFile]
  have unseen {α : Type} (view : SharingFile → Option α) (fileId : Int) :
      SharingFileManager.init.observe view fileId = none := by
    rw [observe, empty]
    rfl
  have childless (parent child : Int) :
      ¬SharingFileManager.init.hierarchy.Child parent child := by
    simp [Hierarchy.Child, hierarchy, unseen]
  have rootless (fileId : Int) : ¬SharingGroupManager.init.IsRoot fileId := by
    simp [SharingGroupManager.IsRoot, SharingGroupManager.init,
      SharingGroupManager.findGroup]
  refine ⟨owned_init _, ⟨?_, ?_, ?_, ?_, ?_, ?_⟩, ?_, ?_, ?_⟩
  · exact fun parent child listed => absurd listed (childless parent child)
  · exact fun parent child listed => absurd listed (childless parent child)
  · exact fun parent child listed => absurd listed (childless parent child)
  · intro parent
    simp [hierarchy, unseen]
  · exact fun first _ child listed => absurd listed (childless first child)
  · exact fun root isRoot => absurd isRoot (rootless root)
  · exact fun root isRoot => absurd isRoot (rootless root)
  · intro fileId storageFileId leads
    rw [unseen] at leads
    cases leads
  · intro first second storageFileId leads
    rw [unseen] at leads
    cases leads

section Reachable

variable {messageSize : Message → Nat} {worker later : ServerWorker}

theorem shape_of_reachable
    (reachable : (serverMachine messageSize).Reachable worker) :
    Shape worker.app.groups.IsRoot worker.app.files := by
  obtain ⟨events, reaches⟩ := reachable
  refine kept_throughout (fun groups files => Shape groups.IsRoot files)
    (fun _ _ => True) shape_init ?_
    (Machine.StepsMeet.of_forall fun _ _ _ => trivial) events []
    (List.append_nil events).symm worker reaches
  intro worker event later reachable shape _ stepped
  exact shape.treeStep (treeStep_of_changed shape
    (Sound.of_reachable reachable) (step_changed stepped))

theorem treeStep_of_step
    (reachable : (serverMachine messageSize).Reachable worker)
    {event : Worker.Event Message ServerCall}
    (stepped : Worker.step (program messageSize) worker event =
      some later) :
    TreeStep worker.app (eventSource worker event)
      later.app.groups.IsRoot later.app.files :=
  treeStep_of_changed (shape_of_reachable reachable)
    (Sound.of_reachable reachable) (step_changed stepped)

end Reachable

/-! ## The table in every reachable state -/

/-- Directories list directories and general files, each at one place at
most and none of them a root; groups have live roots of their own; general
files have storage files of their own, used once.  So listing a directory
and removing an entry do not fail half-way. -/
structure Intact (groups : SharingGroupManager)
    (files : SharingFileManager) : Prop where
  listed : ∀ dirId fileList child,
    files.observe SharingFile.list dirId = some fileList →
    child ∈ fileList →
    (∃ file, files.findFile child = some file ∧
      (file.fileType = .directory ∨ file.fileType = .generalFile)) ∧
    ¬groups.IsRoot child
  nodup : ∀ dirId fileList,
    files.observe SharingFile.list dirId = some fileList → fileList.Nodup
  disjoint : ∀ first second firstList secondList child,
    files.observe SharingFile.list first = some firstList →
    files.observe SharingFile.list second = some secondList →
    child ∈ firstList → child ∈ secondList → first = second
  acyclic : ∀ fileId, ¬Relation.TransGen (fun parent child =>
    ∃ fileList, files.observe SharingFile.list parent = some fileList ∧
      child ∈ fileList) fileId fileId
  roots : ∀ groupId group, groups.findGroup groupId = some group →
    ∃ file, files.findFile group.rootDirId = some file ∧
      file.fileType = .directory
  rootsApart : ∀ firstId secondId first second,
    groups.findGroup firstId = some first →
    groups.findGroup secondId = some second →
    first.rootDirId = second.rootDirId → firstId = secondId
  storage : ∀ fileId fileName storageFileId,
    files.findFile fileId =
      some { fileName := fileName, body := .generalFile storageFileId } →
    (∃ storageName nodeId, files.findFile storageFileId =
      some { fileName := storageName, body := .storageFile nodeId 1 }) ∧
    ∀ other otherName, files.findFile other =
      some { fileName := otherName, body := .generalFile storageFileId } →
      other = fileId
  lists : ∀ dirId fileList,
    files.observe SharingFile.list dirId = some fileList →
    ∃ entries, listFiles files fileList = .ok entries
  removes : ∀ (group : SharingGroup) (path : FilePath) parentId target,
    SharingGroup.walkToRemove files group.rootDirId group.rootDirId
      path.split = .ok (parentId, target) →
    target ≠ group.rootDirId →
    (group.removePath path files).1 = .ok ()

section Intact

variable {groups : SharingGroupManager} {files : SharingFileManager}

theorem child_of_list {parent child : Int} {fileList : List Int}
    (listed : files.observe SharingFile.list parent = some fileList)
    (present : child ∈ fileList) : files.hierarchy.Child parent child := by
  rw [Hierarchy.Child, children_of_list listed]
  exact present

theorem fileType_of_place {file : SharingFile} (place : file.place = none) :
    file.fileType = .directory ∨ file.fileType = .generalFile := by
  obtain ⟨fileName, body⟩ := file
  cases body with
  | directory fileList => exact Or.inl rfl
  | generalFile storageFileId => exact Or.inr rfl
  | storageFile nodeId useCounting => cases place

theorem listFiles_of_live {fileList : List Int}
    (live : ∀ fileId ∈ fileList, files.hierarchy.live fileId) :
    ∃ entries, listFiles files fileList = .ok entries := by
  induction fileList with
  | nil => exact ⟨[], rfl⟩
  | cons fileId rest inductionHypothesis =>
      obtain ⟨file, found, -⟩ := live fileId List.mem_cons_self
      obtain ⟨entries, listed⟩ := inductionHypothesis fun other present =>
        live other (List.mem_cons_of_mem _ present)
      refine ⟨convertFile file :: entries, ?_⟩
      simp only [listFiles, getFile_eq_ok.mpr found, listed]
      rfl

theorem intact_of_shape (shape : Shape groups.IsRoot files)
    (rootsApart : ∀ firstId secondId first second,
      groups.findGroup firstId = some first →
      groups.findGroup secondId = some second →
      first.rootDirId = second.rootDirId → firstId = secondId) :
    Intact groups files where
  listed := by
    intro dirId fileList child listed present
    have below := child_of_list listed present
    obtain ⟨-, file, found, place⟩ := shape.arranged.live dirId child below
    exact ⟨⟨file, found, fileType_of_place place⟩,
      shape.arranged.notRoot dirId child below⟩
  nodup := by
    intro dirId fileList listed
    have nodup := shape.arranged.nodup dirId
    rwa [children_of_list listed] at nodup
  disjoint := by
    intro first second firstList secondList child firstListed secondListed
      firstPresent secondPresent
    exact shape.arranged.unique first second child
      (child_of_list firstListed firstPresent)
      (child_of_list secondListed secondPresent)
  acyclic := by
    intro fileId cycle
    apply shape.arranged.acyclic fileId
    refine Relation.TransGen.mono ?_ _ _ cycle
    rintro parent child ⟨fileList, listed, present⟩
    exact child_of_list listed present
  roots := by
    intro groupId group found
    obtain ⟨fileList, listed⟩ := Option.ne_none_iff_exists'.mp
      (shape.rootLists group.rootDirId ⟨groupId, group, found, rfl⟩)
    obtain ⟨fileName, stored⟩ := observe_list_eq_some.mp listed
    exact ⟨_, stored, rfl⟩
  rootsApart := rootsApart
  storage := by
    intro fileId fileName storageFileId found
    have leads : files.observe SharingFile.storage fileId =
        some storageFileId := observe_of_findFile found
    constructor
    · obtain ⟨⟨storageName, body⟩, stored, counts⟩ :=
        findFile_of_observe (shape.stored fileId storageFileId leads)
      cases body with
      | directory fileList => cases counts
      | generalFile other => cases counts
      | storageFile nodeId useCounting =>
          cases counts
          exact ⟨storageName, nodeId, stored⟩
    · intro other otherName otherFound
      have otherLeads : files.observe SharingFile.storage other =
          some storageFileId := observe_of_findFile otherFound
      exact shape.separate other fileId storageFileId otherLeads leads
  lists := by
    intro dirId fileList listed
    apply listFiles_of_live
    intro fileId present
    exact (shape.arranged.live dirId fileId
      (child_of_list listed present)).2
  removes := by
    intro group path parentId target walked notRoot
    obtain ⟨fileList, removes⟩ := removes_of_walked walked notRoot
    rw [shape.removePath_eq removes]

/-- In every reachable state the table is intact. -/
theorem intact_of_reachable {messageSize : Message → Nat}
    {worker : ServerWorker}
    (reachable : (serverMachine messageSize).Reachable worker) :
    Intact worker.app.groups worker.app.files := by
  refine intact_of_shape (shape_of_reachable reachable) ?_
  obtain ⟨owner, forest⟩ := (Sound.of_reachable reachable).running
  intro firstId secondId first second firstFound secondFound same
  rw [← (forest.roots firstId first firstFound).2,
    ← (forest.roots secondId second secondFound).2, same]

/-- A server with a directory and two files. -/
def uploadedWorker : ServerWorker :=
  (((serverMachine fun _ => 0).run (serverMachine fun _ => 0).start
    sameNameEvents).get (by decide +kernel))

theorem intact_uploadedWorker :
    Intact uploadedWorker.app.groups uploadedWorker.app.files :=
  intact_of_reachable ⟨sameNameEvents, (Option.some_get _).symm⟩

end Intact

end ResourceServer
end Spaceless
