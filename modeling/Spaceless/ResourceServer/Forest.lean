import Spaceless.ResourceServer.Change
import Spaceless.ResourceServer.FileTree

/-!
# The trees of the groups stay apart

The root directory of a group is labelled with the group id.  Every change
keeps such a labelling, and whatever a change does to the entries of one
label is not seen from the roots of other groups.
-/

namespace Spaceless
namespace ResourceServer

open Logic Foundation Protocol

/-- Groups are stored under their ids, and their roots carry these ids. -/
structure Forest (owner : Int → Int)
    (groups : SharingGroupManager) (files : SharingFileManager) : Prop where
  owned : files.Owned owner
  keyed : ∀ groupId group, groups.findGroup groupId = some group →
    group.groupId = groupId ∧ groupId < groups.nextId
  roots : ∀ groupId group, groups.findGroup groupId = some group →
    group.rootDirId < files.nextId ∧ owner group.rootDirId = groupId

/-- The labelling that gives all ids still to be handed out one label. -/
def relabel (owner : Int → Int) (bound label : Int) : Int → Int :=
  fun fileId => if fileId < bound then owner fileId else label

theorem relabel_of_lt {owner : Int → Int} {bound label fileId : Int}
    (below : fileId < bound) :
    relabel owner bound label fileId = owner fileId :=
  if_pos below

theorem relabel_of_le {owner : Int → Int} {bound label fileId : Int}
    (above : bound ≤ fileId) : relabel owner bound label fileId = label :=
  if_neg (by omega)

theorem forest_init (owner : Int → Int) :
    Forest owner SharingGroupManager.init SharingFileManager.init :=
  ⟨SharingFileManager.owned_init owner,
    by simp [SharingGroupManager.init, SharingGroupManager.findGroup],
    by simp [SharingGroupManager.init, SharingGroupManager.findGroup]⟩

namespace Forest

variable {owner : Int → Int}
  {groups : SharingGroupManager} {files : SharingFileManager}

theorem relabel (forest : Forest owner groups files) (label : Int) :
    Forest (relabel owner files.nextId label) groups files := by
  refine ⟨forest.owned.relabel fun _ => relabel_of_lt, forest.keyed, ?_⟩
  intro groupId group found
  obtain ⟨below, root⟩ := forest.roots groupId group found
  exact ⟨below, (relabel_of_lt below).trans root⟩

/-- Paths of the other groups do not see what happens inside one label. -/
theorem getFileId_of_inside {label : Int} {changed : SharingFileManager}
    (forest : Forest owner groups files)
    (inside : Inside owner label files changed)
    {groupId : Int} {group : SharingGroup}
    (found : groups.findGroup groupId = some group)
    (other : groupId ≠ label) (path : FilePath) :
    group.getFileId changed path = group.getFileId files path := by
  refine getFileIdFrom_congr forest.owned ?_
    (forest.roots groupId group found).2 path.split
  intro fileId labelled
  exact inside.outside fileId fun same => other (labelled ▸ same)

/-- The forest after a change inside one label. -/
theorem of_inside {label : Int} {changed : SharingFileManager}
    (forest : Forest owner groups files)
    (inside : Inside owner label files changed) :
    Forest owner groups changed := by
  refine ⟨inside.owned, forest.keyed, ?_⟩
  intro groupId group found
  obtain ⟨below, root⟩ := forest.roots groupId group found
  exact ⟨Int.lt_of_lt_of_le below inside.grows, root⟩

/-- Replacing a group by one of the same place. -/
theorem setGroup (forest : Forest owner groups files)
    {groupId : Int} {group changed : SharingGroup}
    (found : groups.findGroup groupId = some group)
    (place : group.SamePlace changed) :
    Forest owner (groups.setGroup groupId changed) files := by
  have lookup (otherId : Int) (other : SharingGroup)
      (foundOther : (groups.setGroup groupId changed).findGroup otherId =
        some other) :
      ∃ old, groups.findGroup otherId = some old ∧ old.SamePlace other := by
    simp only [SharingGroupManager.setGroup, SharingGroupManager.findGroup,
      Table.lookup_insert] at foundOther
    split at foundOther
    · rename_i same
      cases foundOther
      exact ⟨group, same ▸ found, place⟩
    · exact ⟨other, foundOther, .refl other⟩
  refine ⟨forest.owned, ?_, ?_⟩
  · intro otherId other foundOther
    obtain ⟨old, foundOld, same⟩ := lookup otherId other foundOther
    rw [same.groupId]
    exact forest.keyed otherId old foundOld
  · intro otherId other foundOther
    obtain ⟨old, foundOld, same⟩ := lookup otherId other foundOther
    rw [same.rootDirId]
    exact forest.roots otherId old foundOld

end Forest

/-! ## The actions on groups -/

section Actions

variable {owner : Int → Int} {before : Server}

/-- What `register_group` leaves: nothing new, a root directory without a
group, or the new group with its root directory. -/
inductive RegisteredGroup (owner : Int → Int) (before : Server) :
    Server → Prop
  | refused : RegisteredGroup owner before before
  | rootOnly {files}
      (inside : Inside owner before.groups.nextId before.files files) :
      RegisteredGroup owner before { before with files := files }
  | added {files nodes group}
      (inside : Inside owner before.groups.nextId before.files files)
      (key : group.groupId = before.groups.nextId)
      (root : group.rootDirId = before.files.nextId)
      (below : before.files.nextId < files.nextId) :
      RegisteredGroup owner before
        { before with
          files := files
          nodes := nodes
          groups :=
            { before.groups.setGroup before.groups.nextId group with
              nextId := before.groups.nextId + 1 } }

theorem registerGroup_cases
    (forest : Forest owner before.groups before.files)
    (fresh : ∀ fileId, before.files.nextId ≤ fileId →
      owner fileId = before.groups.nextId)
    (userId : Int) (groupName : Text) :
    RegisteredGroup owner before
      ((Server.registerGroup userId groupName).after before) := by
  refine Action.ensures_after.mp ?_
  simp only [Server.registerGroup, Server.onFiles, Server.onGroups,
    Server.onNodes, Action.ensures_bind, Action.ensures_read,
    Action.ensures_throwIf, Action.ensures_zoom, Action.ensures_check,
    Action.ensures_modify, Action.ensures_pure]
  refine ⟨fun _ => .refused, fun _ => ?_⟩
  refine ((Inside.refl forest.owned).registerFile_ensures fresh .directory
    groupName 0 (by simp)).mono ?_ fun _ _ inside => .rootOnly inside
  intro rootDirId files registered
  obtain ⟨inside, isNew, grown, labelled⟩ := registered
  refine ⟨fun entry fit => ?_, fun _ _ => .rootOnly inside⟩
  obtain ⟨nodeKey, fitNode⟩ := entry
  have free : before.groups.findGroup before.groups.nextId = none := by
    cases found : before.groups.findGroup before.groups.nextId with
    | none => rfl
    | some group => exact absurd (forest.keyed _ _ found).2 (by omega)
  refine ⟨fun present => absurd free present, fun _ => ?_⟩
  exact .added inside rfl isNew (by omega)

/-- A session request changes sessions, and files inside the label of its
group. -/
theorem putSession_inside
    (forest : Forest owner before.groups before.files)
    (user : User) {group : SharingGroup} (request : ReqPutFileSession)
    (found : before.groups.findGroup request.groupId = some group)
    (fresh : ∀ fileId, before.files.nextId ≤ fileId →
      owner fileId = request.groupId) :
    ∃ files sessions, (putSession user group request).after before =
        { before with files := files, sessions := sessions } ∧
      Inside owner request.groupId before.files files := by
  have start : Inside owner request.groupId before.files before.files :=
    .refl forest.owned
  have root := (forest.roots _ _ found).2
  suffices ensures : Action.Ensures (putSession user group request) before
      (fun _ later => ∃ files sessions,
        later = { before with files := files, sessions := sessions } ∧
          Inside owner request.groupId before.files files)
      (fun _ later => ∃ files sessions,
        later = { before with files := files, sessions := sessions } ∧
          Inside owner request.groupId before.files files) from
    Action.ensures_after.mp ensures
  simp only [putSession, Action.ensures_bind, Server.onSessions,
    Action.ensures_zoom]
  refine Action.ensures_of_forall ?_ fun _ _ => ⟨_, _, rfl, start⟩
  intro session sessions
  cases session with
  | some session =>
      simp only [Action.ensures_bind, Action.ensures_throwIf,
        Action.ensures_pure]
      exact ⟨fun _ => ⟨_, _, rfl, start⟩, fun _ => ⟨_, _, rfl, start⟩⟩
  | none =>
      simp only [registerPutFile, Action.ensures_bind, Action.ensures_check,
        Action.ensures_throwIf, Server.onFiles, Server.onSessions,
        Action.ensures_zoom]
      refine ⟨fun _ _ => ⟨fun _ => ⟨_, _, rfl, start⟩, fun _ =>
        ⟨fun _ _ => ⟨fun _ => ⟨_, _, rfl, start⟩, fun _ => ?_⟩,
          fun _ _ => ⟨_, _, rfl, start⟩⟩⟩, fun _ _ => ⟨_, _, rfl, start⟩⟩
      refine (start.registerFile_ensures fresh .storageFile _ _
        (by simp)).mono ?_ fun _ _ failed => ⟨_, _, rfl, failed⟩
      intro storageId files registered
      obtain ⟨stored, isStorage, grown, labelled⟩ := registered
      refine (stored.registerFile_ensures fresh .generalFile _ _
        fun _ => ⟨by omega, labelled⟩).mono ?_
          fun _ _ failed => ⟨_, _, rfl, failed⟩
      intro generalId files registered
      obtain ⟨general, isGeneral, grownAgain, labelledToo⟩ := registered
      refine (general.addFile_ensures root _ (by omega) labelledToo).mono ?_
        fun _ _ failed => ⟨_, _, rfl, failed⟩
      intro _ files added
      refine Action.ensures_of_forall ?_ fun _ _ => ⟨_, _, rfl, added⟩
      intro _ sessions
      exact ⟨fun _ _ => ⟨_, _, rfl, added⟩, fun _ _ => ⟨_, _, rfl, added⟩⟩

end Actions

/-! ## The data file -/

namespace SharingFileManager

/-- Reading back the entries gives the table that was written. -/
theorem deserialize_serialize (files : SharingFileManager) :
    deserialize files.serialize = files := by
  have entries : Table.insertAll ∅ files.fileList.toList =
      files.fileList := by
    apply Std.ExtTreeMap.ext_getElem?
    intro fileId
    have lookup := Table.lookup_insertAll_map_toList files.fileList
      (fun _ file => file) fileId
    simpa using lookup
  simp only [deserialize, serialize, entries]

end SharingFileManager

namespace SharingGroupManager

/-- Reading back the groups gives the list that was written. -/
theorem deserialize_serialize {groups : SharingGroupManager}
    (keyed : ∀ groupId group, groups.findGroup groupId = some group →
      group.groupId = groupId) :
    deserialize groups.serialize = groups := by
  have entries : Table.insertAll ∅
      ((groups.groupList.toList.map Prod.snd).map fun group =>
        (group.groupId, group)) = groups.groupList := by
    apply Std.ExtTreeMap.ext_getElem?
    intro groupId
    have lookup := Table.lookup_insertAll_map_toList groups.groupList
      (fun _ group => group) groupId
    rw [Option.map_id'] at lookup
    rw [← lookup, List.map_map]
    congr 2
    apply List.map_congr_left
    rintro ⟨key, group⟩ listed
    rw [Std.ExtTreeMap.mem_toList_iff_getElem?_eq_some] at listed
    simp [keyed key group listed]
  simp only [deserialize, serialize, entries]

end SharingGroupManager

/-- The trees stay apart, in the running managers and in the data file. -/
structure Sound (server : Server) : Prop where
  running : ∃ owner, Forest owner server.groups server.files
  saved : ∀ file, server.dataFile = some file →
    ∃ owner, Forest owner (SharingGroupManager.deserialize file.groups)
      (SharingFileManager.deserialize file.files)

theorem sound_init : Sound Server.init :=
  ⟨⟨fun _ => 0, forest_init _⟩, by simp [Server.init]⟩

theorem Sound.restart {server : Server} (sound : Sound server)
    (rest : Int → UninitializedUser) : Sound (server.restart rest) := by
  unfold Server.restart
  cases stored : server.dataFile with
  | none => exact sound_init
  | some file =>
      have saved := sound.saved file stored
      refine ⟨saved, ?_⟩
      intro other same
      cases same
      exact saved

end ResourceServer
end Spaceless
