import Spaceless.ResourceServer.Subtree

/-!
# What the path functions leave as it was

Creating a path and entering a file let every path of the group lead where it
led.  Removing a path does so for the paths that do not begin with it, since
one path only leads to an entry.  The paths of other groups keep their ids in
any case.
-/

namespace Spaceless
namespace ResourceServer

open Logic Foundation Protocol

namespace SharingFileManager

variable {files later : SharingFileManager} {roots : Int → Prop}

/-! ## The path to an entry -/

/-- A walk of some names ends with a step from a directory to its entry. -/
theorem Walk.last_step {first last : Int} {path : List Text} {dirName : Text}
    (walk : Walk files first (path ++ [dirName]) last) :
    ∃ parentId, Walk files first path parentId ∧
      files.hierarchy.Child parentId last ∧
      files.name last = some dirName := by
  generalize whole : path ++ [dirName] = names at walk
  induction walk generalizing path with
  | nil => exact absurd whole (List.concat_ne_nil _ _)
  | @cons parentId name rest last fileList listed valid walk
      inductionHypothesis =>
      cases path with
      | nil =>
          cases whole
          cases walk
          refine ⟨parentId, .nil _, ?_, name_findFileIn valid⟩
          exact child_of_list listed (findFileIn_mem valid)
      | cons firstName others =>
          cases whole
          obtain ⟨middle, before, child, named⟩ := inductionHypothesis rfl
          exact ⟨middle, .cons listed valid before, child, named⟩

/-- From a root one path only leads to an entry. -/
theorem Shape.walk_unique (shape : Shape roots files) {root : Int}
    (isRoot : roots root) {first second : List Text} {last : Int}
    (walk : Walk files root first last)
    (other : Walk files root second last) : first = second := by
  induction first using List.reverseRecOn generalizing second last with
  | nil =>
      cases walk
      rcases List.eq_nil_or_concat second with rfl | ⟨before, name, whole⟩
      · rfl
      · rw [whole, List.concat_eq_append] at other
        obtain ⟨parentId, -, child, -⟩ := other.last_step
        exact absurd isRoot (shape.arranged.notRoot parentId root child)
  | append_singleton first firstName inductionHypothesis =>
      obtain ⟨parentId, before, child, named⟩ := walk.last_step
      rcases List.eq_nil_or_concat second with rfl | ⟨others, name, whole⟩
      · cases other
        exact absurd isRoot (shape.arranged.notRoot parentId root child)
      · rw [whole, List.concat_eq_append] at other ⊢
        obtain ⟨otherId, otherBefore, otherChild, otherNamed⟩ :=
          other.last_step
        obtain rfl : parentId = otherId :=
          shape.arranged.unique parentId otherId last child otherChild
        obtain rfl : firstName = name :=
          Option.some_inj.mp (named.symm.trans otherNamed)
        rw [inductionHypothesis before otherBefore]

/-! ## Tables that grow -/

theorem Extends.refl (files : SharingFileManager) : Extends files files :=
  ⟨fun _ fileList listed => ⟨[], by rw [listed, List.append_nil]⟩,
    fun _ _ _ => rfl⟩

theorem Shape.extends_makesDirectory (shape : Shape roots files)
    (makes : MakesDirectory files later) : Extends files later := by
  obtain ⟨dirName, listed, absent⟩ := makes
  exact (shape.extends_addEntry _).trans
    (extends_pushFile (shape.observe_addEntry_of_some _ listed) _)

theorem Shape.extends_makesDirectories (shape : Shape roots files)
    (makes : Relation.ReflTransGen MakesDirectory files later) :
    Extends files later := by
  induction makes with
  | refl => exact .refl files
  | tail before step inductionHypothesis =>
      exact inductionHypothesis.trans
        ((shape.makesDirectories before).extends_makesDirectory step)

end SharingFileManager

open SharingFileManager

/-! ## Kept paths -/

/-- The paths of the group that resolve and are apart keep their ids, and so
do all paths of the other groups. -/
structure KeepsPaths (server : Server) (groupId : Int) (group : SharingGroup)
    (apart : FilePath → Prop) (later : SharingFileManager) : Prop where
  own : ∀ path fileId,
    group.getFileId server.files path = .ok fileId → fileId ≠ invalidId →
    apart path → group.getFileId later path = .ok fileId
  others : ∀ otherId other, server.groups.findGroup otherId = some other →
    otherId ≠ groupId → ∀ path,
      other.getFileId later path = other.getFileId server.files path

section Operations

variable {server : Server} {groupId : Int} {group : SharingGroup}
  {later : SharingFileManager}

theorem getFileId_of_extends (grows : Extends server.files later)
    (path : FilePath) (fileId : Int)
    (resolved : group.getFileId server.files path = .ok fileId)
    (valid : fileId ≠ invalidId) :
    group.getFileId later path = .ok fileId :=
  getFileIdFrom_of_walk (grows.walk (walk_of_getFileIdFrom resolved valid))

/-- The labelling of a forest with new ids in the group. -/
theorem Sound.labelled (sound : Sound server) (groupId : Int) :
    ∃ owner, Forest owner server.groups server.files ∧
      ∀ fileId, server.files.nextId ≤ fileId → owner fileId = groupId := by
  obtain ⟨owner, forest⟩ := sound.running
  exact ⟨_, forest.relabel groupId, fun _ => relabel_of_le⟩

section Kept

variable (shape : Shape server.groups.IsRoot server.files)
  (sound : Sound server)
  (found : server.groups.findGroup groupId = some group)

include shape sound found

theorem keepsPaths_createPath (path : FilePath) :
    KeepsPaths server groupId group (fun _ => True)
      ((group.createPath path).after server.files) := by
  constructor
  · intro other fileId resolved valid _
    exact getFileId_of_extends
      (shape.extends_makesDirectories (createPath_makes shape group path))
      other fileId resolved valid
  · intro otherId other present different query
    obtain ⟨owner, forest, fresh⟩ := sound.labelled groupId
    have inside := Action.ensures_after.mp
      ((Inside.refl forest.owned).createPathFrom_ensures fresh
        (forest.roots groupId group found).2 path.split)
    exact forest.getFileId_of_inside inside present different query

theorem keepsPaths_putSession {user : User} {request : ReqPutFileSession}
    {session : PutFileSession} {after : Server}
    (target : request.groupId = groupId)
    (ran : putSession user group request server = (.ok session, after)) :
    KeepsPaths server groupId group (fun _ => True) after.files := by
  constructor
  · intro other fileId resolved valid _
    have entered := (putSession_enters shape user group request).of_ok ran
    rcases entered.files with ⟨-, -, same⟩ | ⟨-, enters⟩
    · rw [same]
      exact resolved
    · generalize after.files = entered at enters ⊢
      cases enters with
      | entered uploads directory =>
          exact getFileId_of_extends
            (shape.extends_upload _ group.nodeId directory)
            other fileId resolved valid
  · intro otherId other present different query
    obtain ⟨owner, forest, fresh⟩ := sound.labelled groupId
    rw [← target] at found fresh different
    obtain ⟨files, sessions, changed, inside⟩ :=
      putSession_inside forest user request found fresh
    rw [Action.after, ran] at changed
    cases changed
    exact forest.getFileId_of_inside inside present different query

theorem keepsPaths_removePath {path : FilePath}
    (ran : group.removePath path server.files = (.ok (), later)) :
    KeepsPaths server groupId group
      (fun other => ¬path.split <+: other.split) later := by
  obtain ⟨parentId, target, fileList, removes⟩ := removes_of_ok ran
  have isRoot : server.groups.IsRoot group.rootDirId :=
    ⟨groupId, group, found, rfl⟩
  constructor
  · intro other fileId resolved valid apart
    rw [shape.removePath_eq removes] at ran
    cases ran
    apply getFileIdFrom_of_walk
    apply shape.walk_removed removes.listed removes.present
      (walk_of_getFileIdFrom resolved valid)
    intro names isPrefix toTarget
    rw [shape.walk_unique isRoot toTarget removes.walk] at isPrefix
    exact apart isPrefix
  · intro otherId other present different query
    obtain ⟨owner, forest, fresh⟩ := sound.labelled groupId
    have inside := ((Inside.refl forest.owned).removePath_ensures
      (forest.roots groupId group found).2 path).of_ok ran
    exact forest.getFileId_of_inside inside present different query

end Kept

end Operations

/-- In every reachable state a path that is created or a file that is entered
leaves all paths that resolve, a path that is removed those that do not begin
with it, and each of them all paths of the other groups. -/
theorem keepsPaths_of_reachable {messageSize : Message → Nat}
    {worker : ServerWorker}
    (reachable : (serverMachine messageSize).Reachable worker)
    {groupId : Int} {group : SharingGroup}
    (found : worker.app.groups.findGroup groupId = some group) :
    (∀ path, KeepsPaths worker.app groupId group (fun _ => True)
      ((group.createPath path).after worker.app.files)) ∧
    (∀ user request session after, request.groupId = groupId →
      putSession user group request worker.app = (.ok session, after) →
      KeepsPaths worker.app groupId group (fun _ => True) after.files) ∧
    ∀ path later,
      group.removePath path worker.app.files = (.ok (), later) →
      KeepsPaths worker.app groupId group
        (fun other => ¬path.split <+: other.split) later := by
  have shape := shape_of_reachable reachable
  have sound := Sound.of_reachable reachable
  refine ⟨fun path => keepsPaths_createPath shape sound found path, ?_, ?_⟩
  · intro user request session after target ran
    exact keepsPaths_putSession shape sound found target ran
  · intro path later ran
    exact keepsPaths_removePath shape sound found ran

/-- The removal of the directory `d` in the first group. -/
theorem keepsPaths_uploadedWorker :
    KeepsPaths uploadedWorker.app 1 (SharingGroup.init 1 ['g'] 1 1 1)
      (fun other => ¬(FilePath.ofText ['d']).split <+: other.split)
      (((SharingGroup.init 1 ['g'] 1 1 1).removePath
        (FilePath.ofText ['d'])).after uploadedWorker.app.files) := by
  have reachable : (serverMachine fun _ => 0).Reachable uploadedWorker :=
    ⟨sameNameEvents, (Option.some_get _).symm⟩
  have found : uploadedWorker.app.groups.findGroup 1 =
      some (SharingGroup.init 1 ['g'] 1 1 1) := by decide +kernel
  have succeeds : ((SharingGroup.init 1 ['g'] 1 1 1).removePath
      (FilePath.ofText ['d']) uploadedWorker.app.files).1 = .ok () := by
    decide +kernel
  exact (keepsPaths_of_reachable reachable found).2.2 _ _
    (Prod.ext succeeds (by rw [Action.after]))

end ResourceServer
end Spaceless
