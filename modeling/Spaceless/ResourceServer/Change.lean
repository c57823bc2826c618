import Spaceless.Foundation.Outcome
import Spaceless.ResourceServer.Role
import Spaceless.ResourceServer.Transaction

/-!
# What a step can do to the managers

Every handler changes the managers in at most one way after its checks.
`Change` lists these ways with what the checks guarantee, so that later
results go through this list and not through the handlers.
-/

namespace Spaceless
namespace ResourceServer

open Logic Foundation Protocol Frame

/-- Who asks for a change: a package on a connection that starts a
transaction, a package that names a waiting one, or the server. -/
inductive Source
  | request (connId : Int) (package : Package Message)
  | answer
  | server

/-- The group that a request names. -/
def targetGroup : Message → Option Int
  | .reqFindGroup groupId _ => some groupId
  | .reqJoinGroup groupId => some groupId
  | .reqAssignAsManager groupId _ => some groupId
  | .reqAssignAsMember groupId _ => some groupId
  | .reqKickOutUser groupId _ => some groupId
  | .reqListFile groupId _ => some groupId
  | .reqPutFileSession request => some request.groupId
  | .reqGetFileSession groupId _ => some groupId
  | .reqCreatePath groupId _ => some groupId
  | .reqRemovePath groupId _ _ => some groupId
  | _ => none

/-- The user who is logged in on the connection, and the group. -/
structure Acts (server : Server) (connId groupId : Int)
    (user : User) (group : SharingGroup) : Prop where
  login : server.users.findLoginUser connId = some user
  found : server.groups.findGroup groupId = some group

/-- The user who is logged in on the connection manages the group. -/
structure Manages (server : Server) (connId groupId : Int)
    (user : User) (group : SharingGroup) : Prop
    extends Acts server connId groupId user group where
  manager : group.isManager user.userId = true

/-- The session request finds no session to use again, and the checks on its
path pass, so that it registers a file. -/
structure Uploads (server : Server) (user : User) (group : SharingGroup)
    (request : ReqPutFileSession) : Prop where
  noSession : (FileSessionManager.findPutSessionOf user.userId
    request.groupId request.filePath server.sessions).1 = .ok none
  directory : group.existPath server.files (FilePath.ofText
    (FilePath.ofText request.filePath).directoryPath) = .ok true
  path : group.existPath server.files (FilePath.ofText request.filePath) =
    .ok false

/-- One change of the managers. -/
inductive Change (before : Server) : Source → Server → Prop
  | same {source} : Change before source before
  | users {source} (changed : UserManager) :
      Change before source { before with users := changed }
  | nodes (changed : StorageNodeManager) :
      Change before .server { before with nodes := changed }
  | serialize : Change before .server before.serialize
  | registerGroup {source} (userId : Int) (groupName : Text)
      (defined : (Server.registerGroup userId groupName before).1 ≠
        .error .undefined) :
      Change before source
        ((Server.registerGroup userId groupName).after before)
  | roles {connId package groupId user group changed}
      (acts : Acts before connId groupId user group)
      (target : package.content.bind targetGroup = some groupId)
      (place : group.SamePlace changed)
      (permitted : group.isManager user.userId = true ∨
        ∀ other, other ≠ user.userId → group.SameRole changed other) :
      Change before (.request connId package)
        { before with groups := before.groups.setGroup groupId changed }
  | createPath {connId package groupId user group} (path : Text)
      (content : package.content = some (.reqCreatePath groupId path))
      (manages : Manages before connId groupId user group) :
      Change before (.request connId package)
        { before with
          files := (group.createPath (FilePath.ofText path)).after
            before.files }
  | removePath {connId package groupId user group}
      (path : Text) (force : Bool)
      (content : package.content = some (.reqRemovePath groupId path force))
      (manages : Manages before connId groupId user group) :
      Change before (.request connId package)
        { before with
          files := (group.removePath (FilePath.ofText path)).after
            before.files }
  | putSession {connId package user group} (request : ReqPutFileSession)
      (command : package.command = 1027)
      (content : package.content = some (.reqPutFileSession request))
      (manages : Manages before connId request.groupId user group) :
      Change before (.request connId package)
        ((putSession user group request).after before)
  | getSession {connId package groupId user group} (filePath : Text)
      (command : package.command = 1033)
      (content : package.content =
        some (.reqGetFileSession groupId filePath))
      (acts : Acts before connId groupId user group)
      (member : group.isMember user.userId = true)
      {storageFileId : Int}
      (general : generalFileAt group (FilePath.ofText filePath) before =
        (.ok storageFileId, before)) :
      Change before (.request connId package)
        ((getSession user.userId groupId filePath).after before)
  | putFragment {connId package user session} (request : ReqPutFile)
      (command : package.command = 1031)
      (content : package.content = some (.reqPutFile request))
      (login : before.users.findLoginUser connId = some user)
      (found : before.sessions.findPutSession request.sessionId =
        some session)
      (own : session.userId = user.userId)
      (next : request.fragmentIndex = session.nextFragment) :
      Change before (.request connId package)
        { before with
          sessions := before.sessions.setSession request.sessionId
            (.put { session with
              nextFragment := session.nextFragment + 1 }) }
  | removeSession {source} (sessionId : Int) :
      Change before source
        { before with sessions := before.sessions.removeSession sessionId }
  | putNodeSession {source session} (sessionId nodeSessionId : Int)
      (found : before.sessions.findPutSession sessionId = some session) :
      Change before source
        { before with
          sessions := before.sessions.setSession sessionId
            (.put { session with nodeSessionId := nodeSessionId }) }
  | getNodeSession {source session} (sessionId nodeSessionId : Int)
      (found : before.sessions.findGetSession sessionId = some session) :
      Change before source
        { before with
          sessions := before.sessions.setSession sessionId
            (.get { session with nodeSessionId := nodeSessionId }) }

/-- A change, and then the clean-up of error handlers. -/
inductive Changed (before : Server) (source : Source) : Server → Prop
  | change {after} (change : Change before source after) :
      Changed before source after
  | cleanUp {after} (changed : Changed before source after)
      (sessionId : Int) :
      Changed before source
        { after with sessions := after.sessions.removeSession sessionId }

/-! ## Statements that handlers share -/

theorem findLoginUser_of_getLoginUser
    {users : UserManager} {connId : Int} {user : User}
    (login : users.getLoginUser connId = .ok user) :
    users.findLoginUser connId = some user := by
  unfold UserManager.getLoginUser at login
  split at login
  · cases login
    assumption
  · cases login

theorem findGroup_of_getGroup
    {groups : SharingGroupManager} {groupId : Int} {group : SharingGroup}
    (found : groups.getGroup groupId = .ok group) :
    groups.findGroup groupId = some group := by
  unfold SharingGroupManager.getGroup at found
  split at found
  · cases found
    assumption
  · cases found

theorem getLoginUser_of_findLoginUser {users : UserManager} {connId : Int}
    {user : User} (login : users.findLoginUser connId = some user) :
    users.getLoginUser connId = .ok user := by
  simp [UserManager.getLoginUser, login]

theorem getGroup_of_findGroup {groups : SharingGroupManager} {groupId : Int}
    {group : SharingGroup}
    (found : groups.findGroup groupId = some group) :
    groups.getGroup groupId = .ok group := by
  simp [SharingGroupManager.getGroup, found]

/-- The check of `managedGroup`. -/
theorem found_of_managed {groups : SharingGroupManager}
    {groupId userId : Int} {group : SharingGroup}
    (managed : (match groups.getGroup groupId with
      | .error fault => .error fault
      | .ok group =>
          if group.isManager userId then .ok group
          else .error ErrorCode.errGroupNotPermitNeedManager.fault) =
        (.ok group : Except Fault SharingGroup)) :
    groups.findGroup groupId = some group ∧
      group.isManager userId = true := by
  split at managed
  · cases managed
  · rename_i found
    split at managed
    · rename_i manager
      cases managed
      exact ⟨findGroup_of_getGroup found, manager⟩
    · cases managed

theorem content_of_parse {α : Type} {package : Package Message}
    {select : Message → Option α} {value : α}
    (parsed : package.parseToProtocol select = .ok value) :
    ∃ message, package.content = some message ∧
      select message = some value := by
  unfold Package.parseToProtocol at parsed
  split at parsed
  · rename_i selected
    cases parsed
    exact Option.bind_eq_some_iff.mp selected
  · cases parsed

section Statements

variable {Self α β : Type}
  {frame : Frame Server Self Message} {post : Server → Prop}

theorem leads_parse {package : Package Message}
    {select : Message → Option α}
    {next : α → Handler Server Self Message β}
    (stopped : post frame.app)
    (continued : ∀ value message, package.content = some message →
      select message = some value → Leads (next value) frame post) :
    Leads (parse package select >>= next) frame post := by
  refine Leads.bind_check stopped ?_
  intro value parsed
  obtain ⟨message, content, selected⟩ := content_of_parse parsed
  exact continued value message content selected

theorem leads_getLoginUser {connId : Int}
    {next : User → Handler Server Self Message β}
    (stopped : post frame.app)
    (continued : ∀ user,
      frame.app.users.findLoginUser connId = some user →
      Leads (next user) frame post) :
    Leads (onApp (Server.getLoginUser connId) >>= next) frame post := by
  refine Leads.bind_onApp_check stopped ?_
  intro user login
  exact continued user (findLoginUser_of_getLoginUser login)

theorem leads_getGroup {groupId : Int}
    {next : SharingGroup → Handler Server Self Message β}
    (stopped : post frame.app)
    (continued : ∀ group,
      frame.app.groups.findGroup groupId = some group →
      Leads (next group) frame post) :
    Leads (onApp (Server.getGroup groupId) >>= next) frame post := by
  refine Leads.bind_onApp_check stopped ?_
  intro group found
  exact continued group (findGroup_of_getGroup found)

theorem leads_managedGroup {userId groupId : Int}
    {next : SharingGroup → Handler Server Self Message β}
    (stopped : post frame.app)
    (continued : ∀ group,
      frame.app.groups.findGroup groupId = some group →
      group.isManager userId = true → Leads (next group) frame post) :
    Leads (onApp (managedGroup userId groupId) >>= next) frame post := by
  refine Leads.bind_onApp_check stopped ?_
  intro group managed
  obtain ⟨found, manager⟩ := found_of_managed managed
  exact continued group found manager

theorem leads_getNode {nodeId : Int}
    {next : StorageNode → Handler Server Self Message β}
    (stopped : post frame.app)
    (continued : ∀ node, Leads (next node) frame post) :
    Leads (onApp (Server.getNode nodeId) >>= next) frame post :=
  Leads.bind_onApp_check stopped fun node _ => continued node

/-- Run an action on one manager, whose change leads to the property, and
answer. -/
theorem leads_onUsers {action : Action Fault UserManager α}
    {next : α → Handler Server Self Message β}
    (changed : ∀ users, post { frame.app with users := users })
    (continued : ∀ value users,
      Leads (next value)
        { frame with app := { frame.app with users := users } } post) :
    Leads (onApp (Server.onUsers action) >>= next) frame post :=
  Leads.bind_onApp (fun _ => changed _) fun value _ => continued value _

end Statements

/-! ## The one-phase handlers -/

section Handlers

variable {Self : Type} (connId : Int) (package : Package Message)
  (frame : Frame Server Self Message)

theorem onRegisterUser_change :
    Leads (onRegisterUser connId package) frame
      (Change frame.app (.request connId package)) := by
  refine leads_parse .same ?_
  rintro ⟨userName, password⟩ message content selected
  exact leads_onUsers .users fun user users =>
    Leads.sendBackProtocol (.users users)

theorem onLoginUser_change :
    Leads (onLoginUser connId package) frame
      (Change frame.app (.request connId package)) := by
  refine leads_parse .same ?_
  rintro ⟨userId, password⟩ message content selected
  refine leads_onUsers .users fun pass users => ?_
  exact Leads.bind_throwIf (.users users) fun _ =>
    Leads.sendBackProtocol (.users users)

theorem onRemoveUser_change :
    Leads (onRemoveUser connId package) frame
      (Change frame.app (.request connId package)) := by
  refine leads_parse .same fun removedId message content selected => ?_
  refine leads_getLoginUser .same fun user login => ?_
  refine Leads.bind_read ?_
  refine Leads.bind_throwIf .same fun isRoot => ?_
  exact leads_onUsers .users fun value users =>
    Leads.sendBackProtocol (.users users)

theorem onFindUser_change :
    Leads (onFindUser connId package) frame
      (Change frame.app (.request connId package)) := by
  refine leads_parse .same ?_
  rintro ⟨userId, userName⟩ message content selected
  refine leads_getLoginUser .same fun user login => ?_
  exact Leads.bind_check .same fun targetUser found =>
    Leads.sendBackProtocol .same

theorem onPing_change (now : Int) :
    Leads (onPing now connId package) frame
      (Change frame.app (.request connId package)) := by
  refine leads_parse .same ?_
  rintro ⟨second, microsecond⟩ message content selected
  refine leads_getLoginUser .same fun user login => ?_
  exact leads_onUsers .users fun value users =>
    Leads.sendBackProtocol (.users users)

theorem onRegisterGroup_change :
    Leads (onRegisterGroup connId package) frame
      (Change frame.app (.request connId package)) := by
  refine leads_parse .same fun groupName message content selected => ?_
  refine leads_getLoginUser .same fun user login => ?_
  refine Leads.bind_onApp (.registerGroup user.userId groupName) ?_
  intro groupId registered
  refine Leads.sendBackProtocol (.registerGroup user.userId groupName ?_)
  rw [registered]
  simp

theorem onFindGroup_change :
    Leads (onFindGroup connId package) frame
      (Change frame.app (.request connId package)) := by
  refine leads_parse .same ?_
  rintro ⟨groupId, groupName⟩ message content selected
  refine leads_getLoginUser .same fun user login => ?_
  exact Leads.bind_check .same fun group found =>
    Leads.sendBackProtocol .same

/-- A role function that the user may call on the group. -/
theorem leads_onGroup {groupId : Int} {user : User}
    {action : Action Fault SharingGroup Unit} {answer : Message}
    (call : RoleCall)
    (login : frame.app.users.findLoginUser connId = some user)
    (target : package.content.bind targetGroup = some groupId)
    (calls : ∀ group : SharingGroup, action.after group = group.next call)
    (permitted : ∀ group, frame.app.groups.findGroup groupId = some group →
      group.isManager user.userId = true ∨
        ∀ other, other ≠ user.userId →
          group.SameRole (group.next call) other) :
    Leads (onApp (Server.onGroup groupId action) >>= fun _ =>
        sendBackProtocol connId answer package.triggerSource) frame
      (Change frame.app (.request connId package)) := by
  have change : Change frame.app (.request connId package)
      ((Server.onGroup groupId action).after frame.app) := by
    simp only [Server.onGroup, Action.after, SharingGroupManager.getGroup]
    cases found : frame.app.groups.findGroup groupId with
    | none => exact .same
    | some group =>
        have called := calls group
        rw [Action.after] at called
        simp only [called]
        exact .roles ⟨login, found⟩ target (group.samePlace_next call)
          (permitted group found)
  exact Leads.bind_onApp (fun _ => change) fun value _ =>
    Leads.sendBackProtocol change

theorem onJoinGroup_change :
    Leads (onJoinGroup connId package) frame
      (Change frame.app (.request connId package)) := by
  refine leads_parse .same fun groupId message content selected => ?_
  refine leads_getLoginUser .same fun user login => ?_
  have target : package.content.bind targetGroup = some groupId := by
    rw [content]
    split at selected <;> simp_all [targetGroup]
  exact leads_onGroup connId package frame (.joinGroup user.userId)
    login target (fun _ => rfl) fun group found =>
      Or.inr fun other different => group.sameRole_joinGroup different

theorem onAssignAsManager_change :
    Leads (onAssignAsManager connId package) frame
      (Change frame.app (.request connId package)) := by
  refine leads_parse .same ?_
  rintro ⟨groupId, userId⟩ message content selected
  refine leads_getLoginUser .same fun user login => ?_
  refine leads_managedGroup .same fun group found manager => ?_
  have target : package.content.bind targetGroup = some groupId := by
    rw [content]
    split at selected <;> simp_all [targetGroup]
  refine leads_onGroup connId package frame (.assignAsManager userId)
    login target (fun _ => rfl) fun other foundOther => Or.inl ?_
  rw [found] at foundOther
  cases foundOther
  exact manager

theorem onAssignAsMember_change :
    Leads (onAssignAsMember connId package) frame
      (Change frame.app (.request connId package)) := by
  refine leads_parse .same ?_
  rintro ⟨groupId, userId⟩ message content selected
  refine leads_getLoginUser .same fun user login => ?_
  refine leads_managedGroup .same fun group found manager => ?_
  have target : package.content.bind targetGroup = some groupId := by
    rw [content]
    split at selected <;> simp_all [targetGroup]
  refine leads_onGroup connId package frame (.assignAsMember userId)
    login target (fun _ => rfl) fun other foundOther => Or.inl ?_
  rw [found] at foundOther
  cases foundOther
  exact manager

theorem onKickOutUser_change :
    Leads (onKickOutUser connId package) frame
      (Change frame.app (.request connId package)) := by
  refine leads_parse .same ?_
  rintro ⟨groupId, userId⟩ message content selected
  refine leads_getLoginUser .same fun user login => ?_
  refine leads_getGroup .same fun group found => ?_
  refine Leads.bind_throwIf .same fun allowed => ?_
  have target : package.content.bind targetGroup = some groupId := by
    rw [content]
    split at selected <;> simp_all [targetGroup]
  refine leads_onGroup connId package frame (.kickOutUser userId)
    login target (fun _ => rfl) fun other foundOther => ?_
  rw [found] at foundOther
  cases foundOther
  by_cases self : userId = user.userId
  · right
    intro other different
    exact group.sameRole_kickOutUser (self ▸ different)
  · left
    simpa [self] using allowed

theorem onCreatePath_change :
    Leads (onCreatePath connId package) frame
      (Change frame.app (.request connId package)) := by
  refine leads_parse .same ?_
  rintro ⟨groupId, path⟩ message content selected
  have request : package.content = some (.reqCreatePath groupId path) := by
    rw [content]
    split at selected <;> simp_all
  refine leads_getLoginUser .same fun user login => ?_
  refine leads_managedGroup .same fun group found manager => ?_
  have change : Change frame.app (.request connId package)
      ((Server.onFiles (group.createPath (FilePath.ofText path))).after
        frame.app) :=
    .createPath path request ⟨⟨login, found⟩, manager⟩
  exact Leads.bind_onApp (fun _ => change) fun _ _ =>
    Leads.sendBackProtocol change

theorem onListFile_change :
    Leads (onListFile connId package) frame
      (Change frame.app (.request connId package)) := by
  refine leads_parse .same ?_
  rintro ⟨groupId, filePath⟩ message content selected
  refine leads_getLoginUser .same fun user login => ?_
  refine leads_getGroup .same fun group found => ?_
  refine Leads.bind_throwIf .same fun member => ?_
  refine Leads.bind_check .same fun fileId resolved => ?_
  refine Leads.bind_check .same fun file stored => ?_
  split
  · exact Leads.bind_check .same fun files listed =>
      Leads.sendBackProtocol .same
  · exact Leads.of_after .same

end Handlers

/-! ## The multiply-phase transactions -/

section Transactions

variable (trans : MultiplyPhaseTransaction TransSelf)
  (connId : Int) (package : Package Message)
  (frame : Frame Server TransSelf Message)

theorem PutFileSessionTrans.onInit_change
    (command : package.command = 1027) :
    Leads (PutFileSessionTrans.onInit trans connId package) frame
      (Change frame.app (.request connId package)) := by
  refine leads_getLoginUser .same fun user login => ?_
  refine leads_parse .same fun request message content selected => ?_
  have asked : package.content = some (.reqPutFileSession request) := by
    rw [content]
    unfold asReqPutFileSession at selected
    split at selected <;> simp_all
  refine leads_managedGroup .same fun group found manager => ?_
  have change : Change frame.app (.request connId package)
      ((putSession user group request).after frame.app) :=
    .putSession request command asked ⟨⟨login, found⟩, manager⟩
  refine Leads.bind_onApp (fun _ => change) fun session _ => ?_
  refine Leads.bind_setSelf ?_
  refine leads_getNode change fun node => ?_
  exact Leads.bind_serviceSendProtocol fun sends =>
    Leads.serviceWaitNextPhase change

theorem PutFileTrans.onInit_change
    (command : package.command = 1031) :
    Leads (PutFileTrans.onInit trans connId package) frame
      (Change frame.app (.request connId package)) := by
  refine leads_getLoginUser .same fun user login => ?_
  refine leads_parse .same fun request message content selected => ?_
  have asked : package.content = some (.reqPutFile request) := by
    rw [content]
    unfold asReqPutFile at selected
    split at selected <;> simp_all
  refine Leads.bind_check .same fun session got => ?_
  have found : frame.app.sessions.findPutSession request.sessionId =
      some session := by
    unfold FileSessionManager.getPutSession at got
    split at got <;> simp_all
  refine Leads.bind_throwIf .same fun own => ?_
  refine Leads.bind_throwIf .same fun next => ?_
  have change : Change frame.app (.request connId package)
      { frame.app with
        sessions := frame.app.sessions.setSession request.sessionId
          (.put { session with
            nextFragment := session.nextFragment + 1 }) } :=
    .putFragment request command asked login found (not_not.mp own)
      (not_not.mp next)
  refine Leads.bind_onApp (fun _ => change) fun _ _ => ?_
  refine Leads.bind_setSelf ?_
  refine leads_getGroup change fun group _ => ?_
  refine leads_getNode change fun node => ?_
  exact Leads.bind_serviceSendProtocol fun sends =>
    Leads.serviceWaitNextPhase change

theorem after_generalFileAt (group : SharingGroup) (path : FilePath)
    (server : Server) : (generalFileAt group path server).2 = server := by
  have ensures : Action.Ensures (generalFileAt group path) server
      (fun _ later => later = server) (fun _ later => later = server) := by
    simp only [generalFileAt, Action.ensures_bind, Action.ensures_check,
      Action.ensures_throwIf]
    simp only [implies_true, and_true, true_and]
    intro pathExists _ _ fileId _ file _
    split
    · exact Action.ensures_pure.mpr rfl
    · exact Action.ensures_throw.mpr rfl
  exact Action.ensures_after.mp ensures

theorem after_storageNodeOf (storageFileId : Int) (server : Server) :
    (storageNodeOf storageFileId server).2 = server := by
  have ensures : Action.Ensures (storageNodeOf storageFileId) server
      (fun _ later => later = server) (fun _ later => later = server) := by
    simp only [storageNodeOf, Action.ensures_bind, Action.ensures_check]
    simp only [implies_true, and_true]
    intro file _
    split
    · exact Action.ensures_pure.mpr rfl
    · exact Action.ensures_throw.mpr rfl
  exact Action.ensures_after.mp ensures

/-- Finding or registering a get session changes nothing but sessions. -/
theorem after_getSession (server : Server) (userId groupId : Int)
    (filePath : Text) :
    ∃ sessions, (getSession userId groupId filePath).after server =
      { server with sessions := sessions } := by
  suffices ensures : Action.Ensures (getSession userId groupId filePath)
      server
      (fun _ later => ∃ sessions, later = { server with sessions := sessions })
      (fun _ later => ∃ sessions, later = { server with sessions := sessions })
      from Action.ensures_after.mp ensures
  simp only [getSession, Action.ensures_bind, Server.onSessions,
    Action.ensures_zoom]
  refine Action.ensures_of_forall ?_ fun _ sessions => ⟨sessions, rfl⟩
  intro previous sessions
  cases previous with
  | some session => exact Action.ensures_pure.mpr ⟨sessions, rfl⟩
  | none =>
      refine Action.ensures_zoom.mpr (Action.ensures_of_forall ?_ ?_) <;>
        exact fun _ later => ⟨later, rfl⟩

/-- A statement on the data that changes nothing. -/
theorem leads_reader {α β : Type} {action : Action Fault Server α}
    {next : α → Handler Server TransSelf Message β}
    {frame : Frame Server TransSelf Message} {post : Server → Prop}
    (reader : (action frame.app).2 = frame.app)
    (stopped : post frame.app)
    (continued : ∀ value, action frame.app = (.ok value, frame.app) →
      Leads (next value) frame post) :
    Leads (onApp action >>= next) frame post := by
  refine Leads.bind_onApp ?_ fun value ran => ?_
  · rw [Action.after, reader]
    exact fun _ => stopped
  · rw [Action.after, reader] at ran ⊢
    exact continued value ran

theorem GetFileSessionTrans.onInit_change
    (command : package.command = 1033) :
    Leads (GetFileSessionTrans.onInit trans connId package) frame
      (Change frame.app (.request connId package)) := by
  refine leads_getLoginUser .same fun user login => ?_
  refine leads_parse .same ?_
  rintro ⟨groupId, filePath⟩ message content selected
  have asked : package.content =
      some (.reqGetFileSession groupId filePath) := by
    rw [content]
    unfold asReqGetFileSession at selected
    split at selected <;> simp_all
  refine leads_getGroup .same fun group found => ?_
  refine Leads.bind_throwIf .same fun member => ?_
  refine leads_reader (after_generalFileAt group _ _) .same
    fun storageFileId general => ?_
  refine leads_reader (after_storageNodeOf storageFileId _) .same
    fun nodeId stored => ?_
  have change : Change frame.app (.request connId package)
      ((getSession user.userId groupId filePath).after frame.app) :=
    .getSession filePath command asked ⟨login, found⟩
      (Bool.not_eq_false _ ▸ member) general
  refine Leads.bind_onApp (fun _ => change) fun sessionId _ => ?_
  refine Leads.bind_setSelf ?_
  refine leads_getNode change fun node => ?_
  exact Leads.bind_serviceSendProtocol fun sends =>
    Leads.serviceWaitNextPhase change

theorem GetFileTrans.onInit_change :
    Leads (GetFileTrans.onInit trans connId package) frame
      (Change frame.app (.request connId package)) := by
  refine leads_getLoginUser .same fun user login => ?_
  refine leads_parse .same fun request message content selected => ?_
  refine Leads.bind_check .same fun session got => ?_
  refine Leads.bind_throwIf .same fun own => ?_
  refine leads_getGroup .same fun group found => ?_
  refine leads_reader (after_generalFileAt group _ _) .same
    fun storageFileId general => ?_
  refine Leads.bind_setSelf ?_
  refine leads_reader (after_storageNodeOf storageFileId _) .same
    fun nodeId stored => ?_
  refine leads_getNode .same fun node => ?_
  exact Leads.bind_serviceSendProtocol fun sends =>
    Leads.serviceWaitNextPhase .same

theorem RemovePathTrans.onInit_change :
    Leads (RemovePathTrans.onInit connId package) frame
      (Change frame.app (.request connId package)) := by
  refine leads_getLoginUser .same fun user login => ?_
  refine leads_parse .same ?_
  rintro ⟨groupId, path⟩ message content selected
  refine leads_managedGroup .same fun group found manager => ?_
  split at selected
  · rename_i force
    cases selected
    exact Leads.of_after
      (.removePath path force content ⟨⟨login, found⟩, manager⟩)
  · cases selected

theorem leads_removeSession {sessionId : Int}
    {next : Unit → Handler Server TransSelf Message Unit}
    {post : Server → Prop}
    (holds : post { frame.app with
      sessions := frame.app.sessions.removeSession sessionId })
    (continued : ∀ frame', post frame'.app → Leads (next ()) frame' post) :
    Leads (onApp (removeSession sessionId) >>= next) frame post :=
  Leads.bind_onApp (fun _ => holds) fun _ _ => continued _ holds

theorem PutFileSessionTrans.onActive_change (sessionId : Int) :
    Leads (PutFileSessionTrans.onActive trans sessionId package) frame
      (Change frame.app .answer) := by
  refine leads_parse .same fun response message content selected => ?_
  split
  · exact leads_removeSession frame (.removeSession sessionId)
      fun _ => Leads.sendBackProtocol
  · have change : Change frame.app .answer
        ((Server.onSessions (FileSessionManager.setPutNodeSession sessionId
          response.sessionId)).after frame.app) := by
      rw [Server.after_onSessions]
      simp only [FileSessionManager.setPutNodeSession, Action.after]
      split
      · exact .same
      · exact .putNodeSession sessionId response.sessionId (by assumption)
    exact Leads.bind_onApp (fun _ => change) fun session _ =>
      Leads.sendBackProtocol change

theorem GetFileSessionTrans.onActive_change (sessionId : Int) :
    Leads (GetFileSessionTrans.onActive trans sessionId package) frame
      (Change frame.app .answer) := by
  refine leads_parse .same fun response message content selected => ?_
  split
  · exact leads_removeSession frame (.removeSession sessionId)
      fun _ => Leads.sendBackProtocol
  · have change : Change frame.app .answer
        ((Server.onSessions (FileSessionManager.setGetNodeSession sessionId
          response.sessionId)).after frame.app) := by
      rw [Server.after_onSessions]
      simp only [FileSessionManager.setGetNodeSession, Action.after]
      split
      · exact .same
      · exact .getNodeSession sessionId response.sessionId (by assumption)
    exact Leads.bind_onApp (fun _ => change) fun session _ =>
      Leads.sendBackProtocol change

theorem onActive_change :
    Leads (onActive trans connId package) frame
      (Change frame.app .answer) := by
  unfold onActive
  split
  · exact PutFileSessionTrans.onActive_change trans package frame _
  · refine leads_getLoginUser .same fun user login => ?_
    exact leads_parse .same fun _ _ _ _ => Leads.sendBackProtocol .same
  · exact GetFileSessionTrans.onActive_change trans package frame _
  · refine leads_getLoginUser .same fun user login => ?_
    exact leads_parse .same fun _ _ _ _ => Leads.sendBackProtocol .same
  · exact Leads.of_after .same

/-- The commands that the classes of transactions are registered with. -/
def TransSelf.command : TransSelf → Int
  | .putFileSession _ => 1027
  | .putFile _ => 1031
  | .getFileSession _ => 1033
  | .getFile _ => 1037
  | .removePath => 1041

theorem command_of_findTransaction {command : Int} {self : TransSelf}
    (registered : findTransaction command = some (.multiplyPhase self)) :
    command = self.command := by
  unfold findTransaction at registered
  split at registered <;> cases registered <;> rfl

theorem onInit_change
    (registered : findTransaction package.command =
      some (.multiplyPhase trans.self)) :
    Leads (onInit trans connId package) frame
      (Change frame.app (.request connId package)) := by
  have command := command_of_findTransaction registered
  unfold onInit
  split <;> rename_i self <;> rw [self] at command
  · exact PutFileSessionTrans.onInit_change trans connId package frame
      command
  · exact PutFileTrans.onInit_change trans connId package frame command
  · exact GetFileSessionTrans.onInit_change trans connId package frame
      command
  · exact GetFileTrans.onInit_change trans connId package frame
  · exact RemovePathTrans.onInit_change connId package frame

end Transactions

/-! ## Steps of the server -/

theorem internal_change (call : ServerCall) (server : Server)
    (defined : (internal call server).1 ≠ .error .undefined) :
    Change server .server ((internal call).after server) := by
  cases call with
  | registerRootUser userName password =>
      simp only [internal, Action.after_bind_pure]
      exact .users _
  | registerRootGroup userId groupName =>
      simp only [internal, Action.after_bind_pure]
      refine .registerGroup userId groupName fun undefined => defined ?_
      rw [internal, Action.bind_apply]
      split <;> rename_i outcome <;> rw [outcome] at undefined <;>
        cases undefined
      rfl
  | registerNode ip port serviceId => exact .nodes _
  | setService nodeId serviceId => exact .nodes _
  | kickOutUser connId => exact .users _
  | serialize => exact .serialize

variable {messageSize : Message → Nat}

theorem errorsKeep_changed (before : Server) (source : Source) :
    Worker.ErrorsKeep (program messageSize) (Changed before source) := by
  intro trans connId errorInfo frame changed
  change Leads (onError messageSize trans connId errorInfo) frame _
  unfold onError
  split
  · exact leads_removeSession frame (.cleanUp changed _)
      fun _ => Leads.sendBackProtocol
  · exact leads_removeSession frame (.cleanUp changed _)
      fun _ => Leads.sendBackProtocol
  · exact Leads.sendBackProtocol changed

/-- A registered one-phase handler makes one change. -/
theorem onePhase_change {command : Int}
    {handler : Int → Int → Package Message →
      Handler Server Unit Message Unit}
    (registered : findTransaction command = some (.onePhase handler))
    (now connId : Int) (package : Package Message)
    (frame : Frame Server Unit Message) :
    Leads (handler now connId package) frame
      (Change frame.app (.request connId package)) := by
  unfold findTransaction at registered
  split at registered <;> cases registered
  · exact onPing_change connId package frame now
  · exact onRegisterUser_change connId package frame
  · exact onLoginUser_change connId package frame
  · exact onRemoveUser_change connId package frame
  · exact onFindUser_change connId package frame
  · exact onRegisterGroup_change connId package frame
  · exact onFindGroup_change connId package frame
  · exact onJoinGroup_change connId package frame
  · exact onAssignAsManager_change connId package frame
  · exact onAssignAsMember_change connId package frame
  · exact onKickOutUser_change connId package frame
  · exact onCreatePath_change connId package frame
  · exact onListFile_change connId package frame

/-- Who asks for the changes that a received package makes. -/
def packageSource (worker : ServerWorker) (connId : Int)
    (package : Package Message) : Source :=
  match worker.waitingTransaction package with
  | none => .request connId package
  | some _ => .answer

theorem packageSource_eq_request {worker : ServerWorker} {connId other : Int}
    {package asked : Package Message}
    (source : packageSource worker connId package = .request other asked) :
    worker.waitingTransaction package = none ∧
      connId = other ∧ package = asked := by
  unfold packageSource at source
  split at source
  · rename_i starts
    cases source
    exact ⟨starts, rfl, rfl⟩
  · cases source

/-- What a received package can do to the managers. -/
theorem receive_changed
    {now connId serviceId : Int} {package : Package Message}
    {worker later : ServerWorker}
    (received : Worker.receive (program messageSize)
      now connId serviceId package worker = some later) :
    Changed worker.app (packageSource worker connId package) later.app := by
  refine Worker.receive_post (.change .same) ?_ ?_ ?_
    (errorsKeep_changed _ _) received
  · intro starts handler registered
    rw [packageSource, starts]
    exact fun defined => .change (onePhase_change registered now connId
      package (Worker.startFrame worker.app ()) defined)
  · intro starts factory trans registered sameClass
    rw [packageSource, starts]
    exact fun defined => .change (onInit_change trans connId package
      (Worker.startFrame worker.app factory) (sameClass ▸ registered)
      defined)
  · intro waiting answers fits
    rw [packageSource, answers]
    exact fun defined => .change (onActive_change waiting.clearWaitingState
      connId package (Worker.startFrame worker.app waiting.self) defined)

/-- Who asks for the changes of a step of the worker. -/
def eventSource (worker : ServerWorker) :
    Worker.Event Message ServerCall → Source
  | .receive _ connId _ package => packageSource worker connId package
  | _ => .server

/-- A request comes with a package that starts a transaction. -/
theorem eventSource_eq_request {worker : ServerWorker} {connId : Int}
    {package : Package Message} {event : Worker.Event Message ServerCall}
    (source : eventSource worker event = .request connId package) :
    worker.waitingTransaction package = none ∧
      ∃ now serviceId, event = .receive now connId serviceId package := by
  cases event with
  | receive now otherId serviceId asked =>
      obtain ⟨starts, rfl, rfl⟩ := packageSource_eq_request source
      exact ⟨starts, now, serviceId, rfl⟩
  | internal call => cases source
  | expire now timerId => cases source

/-- What a step of the worker can do to the managers. -/
theorem step_changed {worker later : ServerWorker}
    {event : Worker.Event Message ServerCall}
    (stepped : Worker.step (program messageSize) worker event =
      some later) :
    Changed worker.app (eventSource worker event) later.app := by
  cases event with
  | receive now connId serviceId package => exact receive_changed stepped
  | internal call =>
      have called : Worker.callInternal (program messageSize) call worker =
          some later := stepped
      exact Worker.callInternal_post called
        fun defined => .change (internal_change call worker.app defined)
  | expire now timerId =>
      have expired : Worker.processExpiryTimer (program messageSize)
          now timerId worker = some later := stepped
      exact Worker.processExpiryTimer_post (.change .same)
        (errorsKeep_changed _ _) expired

theorem after_of_internal {worker later : ServerWorker} {call : ServerCall}
    (stepped : Worker.step (program messageSize) worker (.internal call) =
      some later) : (internal call).after worker.app = later.app := by
  have called : Worker.callInternal (program messageSize) call worker =
      some later := stepped
  exact Worker.callInternal_post called fun _ => rfl

/-- Apart from its own calls, the server changes by requests and answers. -/
theorem step_asked {worker later : ServerWorker}
    {event : Worker.Event Message ServerCall}
    (stepped : Worker.step (program messageSize) worker event =
      some later) :
    (∃ call, event = .internal call) ∨
      ∃ source, source ≠ .server ∧ Changed worker.app source later.app := by
  cases event with
  | receive now connId serviceId package =>
      refine Or.inr ⟨_, ?_, receive_changed stepped⟩
      unfold packageSource
      split <;> simp
  | internal call => exact Or.inl ⟨call, rfl⟩
  | expire now timerId =>
      have expired : Worker.processExpiryTimer (program messageSize)
          now timerId worker = some later := stepped
      exact Or.inr ⟨.answer, by simp, Worker.processExpiryTimer_post
        (.change .same) (errorsKeep_changed _ _) expired⟩

end ResourceServer
end Spaceless
