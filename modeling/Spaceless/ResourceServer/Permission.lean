import Spaceless.ResourceServer.Forest

/-!
# Who can change paths and roles

A request changes which paths resolve in a group, or the role of another
user in it, only when its connection is logged in as a manager of the group
and the group is the one the request names.  The invariant behind it is the
labelling of the file table, for the running managers and for the data file.
-/

namespace Spaceless
namespace ResourceServer

open Logic Foundation Protocol

/-- What a path resolves to in a group. -/
def resolve (server : Server) (groupId : Int) (path : FilePath) :
    Option (Except Fault Int) :=
  (server.groups.findGroup groupId).map fun group =>
    group.getFileId server.files path

/-- Whether a user manages a group and is a member of it. -/
def role (server : Server) (groupId userId : Int) : Option (Bool × Bool) :=
  (server.groups.findGroup groupId).map fun group =>
    (group.isManager userId, group.isMember userId)

def ChangesPaths (before after : Server) (groupId : Int) : Prop :=
  ∃ path, resolve after groupId path ≠ resolve before groupId path

def ChangesRole (before after : Server) (groupId userId : Int) : Prop :=
  role after groupId userId ≠ role before groupId userId

/-- The user id of the connection's login. -/
def requester (server : Server) (connId : Int) : Option Int :=
  (server.users.findLoginUser connId).map User.userId

/-- A request that names the group, by one of its managers. -/
def ByManager (before : Server) (source : Source)
    (groupId : Int) (group : SharingGroup) : Prop :=
  ∃ connId package user, source = .request connId package ∧
    package.content.bind targetGroup = some groupId ∧
    Manages before connId groupId user group

/-- A request that names the group, by the user. -/
def ByUser (before : Server) (source : Source)
    (groupId userId : Int) : Prop :=
  ∃ connId package user, source = .request connId package ∧
    package.content.bind targetGroup = some groupId ∧
    before.users.findLoginUser connId = some user ∧ user.userId = userId

/-- The trees stay apart, and what an existing group sees of a change. -/
structure Effect (before : Server) (source : Source) (after : Server) :
    Prop where
  forest : ∃ owner, Forest owner after.groups after.files
  dataFile : after.dataFile = before.dataFile ∨
    after.dataFile = before.serialize.dataFile
  existing : ∀ groupId group,
    before.groups.findGroup groupId = some group →
    ∃ changed, after.groups.findGroup groupId = some changed ∧
      ((∀ path, changed.getFileId after.files path =
          group.getFileId before.files path) ∨
        ByManager before source groupId group) ∧
      ∀ userId, group.SameRole changed userId ∨
        ByManager before source groupId group ∨
        ByUser before source groupId userId

namespace Effect

variable {before after : Server} {source : Source} {owner : Int → Int}

theorem of_same (forest : Forest owner before.groups before.files)
    (groups : after.groups = before.groups)
    (files : after.files = before.files)
    (dataFile : after.dataFile = before.dataFile ∨
      after.dataFile = before.serialize.dataFile) :
    Effect before source after := by
  refine ⟨⟨owner, ?_⟩, dataFile, ?_⟩
  · rw [groups, files]
    exact forest
  · intro groupId group found
    exact ⟨group, groups ▸ found, Or.inl fun path => by rw [files],
      fun _ => Or.inl ⟨rfl, rfl⟩⟩

/-- A change of the files of one group, which a manager asked for. -/
theorem of_files {connId label : Int} {package : Package Message}
    {user : User} {group : SharingGroup}
    (forest : Forest owner before.groups before.files)
    (manages : Manages before connId label user group)
    (target : package.content.bind targetGroup = some label)
    (groups : after.groups = before.groups)
    (dataFile : after.dataFile = before.dataFile)
    (inside : Inside (relabel owner before.files.nextId label) label
      before.files after.files) :
    Effect before (.request connId package) after := by
  have relabelled := forest.relabel label
  refine ⟨⟨_, groups ▸ relabelled.of_inside inside⟩, Or.inl dataFile, ?_⟩
  intro groupId other found
  refine ⟨other, groups ▸ found, ?_, fun _ => Or.inl ⟨rfl, rfl⟩⟩
  by_cases same : groupId = label
  · subst same
    right
    rw [manages.found] at found
    cases found
    exact ⟨connId, package, user, rfl, target, manages⟩
  · left
    exact relabelled.getFileId_of_inside inside found same

/-- A change of the roles in one group. -/
theorem of_roles {connId label : Int} {package : Package Message}
    {user : User} {group changed : SharingGroup}
    (forest : Forest owner before.groups before.files)
    (acts : Acts before connId label user group)
    (target : package.content.bind targetGroup = some label)
    (place : group.SamePlace changed)
    (permitted : group.isManager user.userId = true ∨
      ∀ other, other ≠ user.userId → group.SameRole changed other) :
    Effect before (.request connId package)
      { before with groups := before.groups.setGroup label changed } := by
  refine ⟨⟨owner, forest.setGroup acts.found place⟩, Or.inl rfl, ?_⟩
  intro groupId other found
  by_cases same : label = groupId
  · subst same
    rw [acts.found] at found
    cases found
    refine ⟨changed, ?_, Or.inl ?_, ?_⟩
    · simp [SharingGroupManager.setGroup, SharingGroupManager.findGroup]
    · intro path
      unfold SharingGroup.getFileId
      rw [place.rootDirId]
    · intro userId
      rcases permitted with manager | own
      · exact Or.inr (Or.inl
          ⟨connId, package, user, rfl, target, acts, manager⟩)
      · by_cases self : userId = user.userId
        · exact Or.inr (Or.inr
            ⟨connId, package, user, rfl, target, acts.login, self.symm⟩)
        · exact Or.inl (own userId self)
  · refine ⟨other, ?_, Or.inl fun _ => rfl, fun _ => Or.inl ⟨rfl, rfl⟩⟩
    simp only [SharingGroupManager.setGroup, SharingGroupManager.findGroup]
    rwa [Table.lookup_insert_of_ne _ _ same]

/-- A new group takes an id and a root of its own. -/
theorem of_registered
    (forest : Forest owner before.groups before.files)
    (registered : RegisteredGroup
      (relabel owner before.files.nextId before.groups.nextId)
      before after) : Effect before source after := by
  have relabelled := forest.relabel before.groups.nextId
  have older (groupId : Int) (group : SharingGroup)
      (found : before.groups.findGroup groupId = some group) :
      before.groups.nextId ≠ groupId := by
    have below := (forest.keyed groupId group found).2
    omega
  cases registered with
  | refused => exact of_same forest rfl rfl (Or.inl rfl)
  | rootOnly inside =>
      refine ⟨⟨_, relabelled.of_inside inside⟩, Or.inl rfl, ?_⟩
      intro groupId group found
      exact ⟨group, found,
        Or.inl (relabelled.getFileId_of_inside inside found
          (older groupId group found).symm),
        fun _ => Or.inl ⟨rfl, rfl⟩⟩
  | @added files nodes new inside key root below =>
      have kept (groupId : Int) (group : SharingGroup)
          (found : before.groups.findGroup groupId = some group) :
          (before.groups.setGroup before.groups.nextId new).findGroup
            groupId = some group := by
        simp only [SharingGroupManager.setGroup,
          SharingGroupManager.findGroup]
        rwa [Table.lookup_insert_of_ne _ _ (older groupId group found)]
      have grown := relabelled.of_inside inside
      refine ⟨⟨_, grown.owned, ?_, ?_⟩, Or.inl rfl, ?_⟩
      · intro groupId group found
        simp only [SharingGroupManager.setGroup,
          SharingGroupManager.findGroup, Table.lookup_insert] at found
        split at found
        · rename_i same
          cases found
          exact ⟨key.trans same, by simp only; omega⟩
        · have keyed := forest.keyed groupId group found
          exact ⟨keyed.1, by simp only; omega⟩
      · intro groupId group found
        simp only [SharingGroupManager.setGroup,
          SharingGroupManager.findGroup, Table.lookup_insert] at found
        split at found
        · rename_i same
          cases found
          rw [root, ← same]
          exact ⟨below, relabel_of_le (Int.le_refl _)⟩
        · exact grown.roots groupId group found
      · intro groupId group found
        exact ⟨group, kept groupId group found,
          Or.inl (relabelled.getFileId_of_inside inside found
            (older groupId group found).symm),
          fun _ => Or.inl ⟨rfl, rfl⟩⟩

/-- The effect of one change. -/
theorem of_change (forest : Forest owner before.groups before.files)
    (change : Change before source after) :
    Effect before source after := by
  have start (label : Int) :
      Inside (relabel owner before.files.nextId label) label
        before.files before.files :=
    .refl (forest.relabel label).owned
  have fresh (label fileId : Int) (above : before.files.nextId ≤ fileId) :
      relabel owner before.files.nextId label fileId = label :=
    relabel_of_le above
  cases change with
  | same => exact of_same forest rfl rfl (Or.inl rfl)
  | users changed => exact of_same forest rfl rfl (Or.inl rfl)
  | nodes changed => exact of_same forest rfl rfl (Or.inl rfl)
  | serialize => exact of_same forest rfl rfl (Or.inr rfl)
  | registerGroup userId groupName =>
      exact of_registered forest (registerGroup_cases
        (forest.relabel _) (fresh _) userId groupName)
  | roles acts target place permitted =>
      exact of_roles forest acts target place permitted
  | @createPath connId package groupId user group path content manages =>
      have root := ((forest.relabel groupId).roots _ _ manages.found).2
      refine of_files forest manages (by rw [content]; rfl) rfl rfl ?_
      exact Action.ensures_after.mp
        ((start _).createPathFrom_ensures (fresh _) root _)
  | @removePath connId package groupId user group path force content
      manages =>
      have root := ((forest.relabel groupId).roots _ _ manages.found).2
      refine of_files forest manages (by rw [content]; rfl) rfl rfl ?_
      exact Action.ensures_after.mp ((start _).removePath_ensures root _)
  | @putSession connId package user group request command content
      manages =>
      obtain ⟨files, sessions, changed, inside⟩ := putSession_inside
        (forest.relabel _) user request manages.found (fresh _)
      rw [changed]
      exact of_files forest manages (by rw [content]; rfl) rfl rfl inside
  | getSession filePath command content acts member general =>
      obtain ⟨sessions, changed⟩ := after_getSession before _ _ filePath
      rw [changed]
      exact of_same forest rfl rfl (Or.inl rfl)
  | putFragment request command content login found own next =>
      exact of_same forest rfl rfl (Or.inl rfl)
  | removeSession sessionId => exact of_same forest rfl rfl (Or.inl rfl)
  | putNodeSession sessionId nodeSessionId found =>
      exact of_same forest rfl rfl (Or.inl rfl)
  | getNodeSession sessionId nodeSessionId found =>
      exact of_same forest rfl rfl (Or.inl rfl)

theorem of_changed (forest : Forest owner before.groups before.files)
    (changed : Changed before source after) :
    Effect before source after := by
  induction changed with
  | change change => exact of_change forest change
  | cleanUp changed sessionId effect =>
      exact ⟨effect.forest, effect.dataFile, effect.existing⟩

end Effect

/-! ## Reachable states -/

theorem Sound.changed {before after : Server} {source : Source}
    (sound : Sound before) (changed : Changed before source after) :
    Sound after := by
  obtain ⟨owner, forest⟩ := sound.running
  have effect := Effect.of_changed forest changed
  refine ⟨effect.forest, ?_⟩
  intro file stored
  rcases effect.dataFile with same | written
  · exact sound.saved file (same ▸ stored)
  · rw [written] at stored
    cases stored
    refine ⟨owner, ?_⟩
    simp only [SharingFileManager.deserialize_serialize]
    rw [SharingGroupManager.deserialize_serialize fun groupId group found =>
      (forest.keyed groupId group found).1]
    exact forest

variable {messageSize : Message → Nat}

theorem Sound.of_reachable {worker : ServerWorker}
    (reachable : (serverMachine messageSize).Reachable worker) :
    Sound worker.app := by
  obtain ⟨events, reaches⟩ := reachable
  refine Machine.Reaches.induction
    (motive := fun _ worker => Sound worker.app) sound_init ?_ reaches
  intro events worker event next _ sound stepped
  cases event with
  | worker event => exact sound.changed (step_changed stepped)
  | restart rest =>
      cases stepped
      exact sound.restart rest

theorem Effect.changesPaths {before after : Server} {source : Source}
    (effect : Effect before source after)
    {groupId : Int} {group : SharingGroup}
    (existing : before.groups.findGroup groupId = some group)
    (changes : ChangesPaths before after groupId) :
    ByManager before source groupId group := by
  obtain ⟨changed, found, paths, roles⟩ :=
    effect.existing groupId group existing
  obtain ⟨path, different⟩ := changes
  refine paths.resolve_left fun same => different ?_
  simp only [resolve, found, existing, Option.map_some, same path]

theorem Effect.changesRole {before after : Server} {source : Source}
    (effect : Effect before source after)
    {groupId userId : Int} {group : SharingGroup}
    (existing : before.groups.findGroup groupId = some group)
    (changes : ChangesRole before after groupId userId) :
    ByManager before source groupId group ∨
      ByUser before source groupId userId := by
  obtain ⟨changed, found, paths, roles⟩ :=
    effect.existing groupId group existing
  refine (roles userId).resolve_left fun same => changes ?_
  simp only [role, found, existing, Option.map_some, same.1, same.2]

/-- A request changes paths of an existing group, or the role in it of a user
other than the requester, only if its connection is logged in as a manager
of the group; and it changes neither in a group that it does not name. -/
theorem changes_only_by_manager {worker later : ServerWorker}
    (reachable : (serverMachine messageSize).Reachable worker)
    {now connId serviceId : Int} {package : Package Message}
    (received : Worker.receive (program messageSize)
      now connId serviceId package worker = some later)
    {groupId : Int} {group : SharingGroup}
    (existing : worker.app.groups.findGroup groupId = some group) :
    ((ChangesPaths worker.app later.app groupId ∨
        ∃ userId, requester worker.app connId ≠ some userId ∧
          ChangesRole worker.app later.app groupId userId) →
      ∃ user, worker.app.users.findLoginUser connId = some user ∧
        group.isManager user.userId = true) ∧
    (package.content.bind targetGroup ≠ some groupId →
      ¬ChangesPaths worker.app later.app groupId ∧
        ∀ userId, ¬ChangesRole worker.app later.app groupId userId) := by
  obtain ⟨owner, forest⟩ := (Sound.of_reachable reachable).running
  have effect := Effect.of_changed forest (receive_changed received)
  constructor
  · intro changes
    have byManager : ByManager worker.app
        (packageSource worker connId package) groupId group := by
      rcases changes with paths | ⟨userId, other, roles⟩
      · exact effect.changesPaths existing paths
      · refine (effect.changesRole existing roles).resolve_right ?_
        rintro ⟨_, _, user, source, -, login, same⟩
        obtain ⟨-, rfl, -⟩ := packageSource_eq_request source
        exact other (by rw [requester, login, ← same]; rfl)
    obtain ⟨_, _, user, source, -, manages⟩ := byManager
    obtain ⟨-, rfl, -⟩ := packageSource_eq_request source
    exact ⟨user, manages.login, manages.manager⟩
  · intro notNamed
    have named {asked : Package Message} {other : Int}
        (source : packageSource worker connId package =
          .request other asked)
        (target : asked.content.bind targetGroup = some groupId) :
        False := by
      obtain ⟨-, -, rfl⟩ := packageSource_eq_request source
      exact notNamed target
    refine ⟨fun paths => ?_, fun userId roles => ?_⟩
    · obtain ⟨_, _, user, source, target, -⟩ :=
        effect.changesPaths existing paths
      exact named source target
    · rcases effect.changesRole existing roles with
        ⟨_, _, user, source, target, -⟩ | ⟨_, _, user, source, target, -⟩
      · exact named source target
      · exact named source target

/-- A request that creates a path in the first group. -/
def createPathPackage : Package Message where
  command := 1039
  selfPackageId := 2
  triggerPackageId := 0
  content := some (.reqCreatePath 1 ['d'])

theorem changes_only_by_manager_at_createPath :
    ∃ (later : ServerWorker) (group : SharingGroup),
      Worker.receive (program fun _ => 0) 0 5 0 createPathPackage
        openedWorker = some later ∧
      openedWorker.app.groups.findGroup 1 = some group ∧
      ((ChangesPaths openedWorker.app later.app 1 ∨
          ∃ userId, requester openedWorker.app 5 ≠ some userId ∧
            ChangesRole openedWorker.app later.app 1 userId) →
        ∃ user, openedWorker.app.users.findLoginUser 5 = some user ∧
          group.isManager user.userId = true) :=
  ⟨(Worker.receive (program fun _ => 0) 0 5 0 createPathPackage
      openedWorker).get (by decide +kernel),
    (openedWorker.app.groups.findGroup 1).get (by decide +kernel),
    (Option.some_get _).symm, (Option.some_get _).symm,
    (changes_only_by_manager ⟨openingEvents, openedWorker_reaches⟩
      (Option.some_get _).symm (Option.some_get _).symm).1⟩

end ResourceServer
end Spaceless
