import Spaceless.Foundation.Linkage
import Spaceless.ResourceServer.Rollback
import Spaceless.ResourceServer.Transfer

/-!
# The session that a response is for

A session transaction takes down the id of its session and looks it up again
when the storage node has answered.  Several transactions can share one
session, and the first of them to fail removes it.  As long as no step ends a
session that another registered transaction has taken down, every lookup
finds its session.
-/

namespace Spaceless
namespace ResourceServer

open Logic Foundation Protocol Frame FileSessionManager

namespace TransSelf

/-- `m_session_id` of the two session transactions. -/
def sessionId : TransSelf → Option Int
  | .putFileSession sessionId | .getFileSession sessionId => some sessionId
  | _ => none

/-- The lookup of `on_active` by `m_session_id` finds a session. -/
def FindsSession (self : TransSelf) (sessions : FileSessionManager) :
    Prop :=
  match self with
  | .putFileSession sessionId =>
      (sessions.findPutSession sessionId).isSome = true
  | .getFileSession sessionId =>
      (sessions.findGetSession sessionId).isSome = true
  | _ => True

/-- The package is a response of the storage node without an error. -/
def Succeeds (self : TransSelf) (package : Package Message) : Prop :=
  match self with
  | .putFileSession _ =>
      ∃ response, package.parseToProtocol Message.asRspNodePutFileSession =
        .ok response ∧ response.error = none
  | .getFileSession _ =>
      ∃ response, package.parseToProtocol Message.asRspNodeGetFileSession =
        .ok response ∧ response.error = none
  | _ => True

end TransSelf

theorem TransSelf.findsSession_put {sessions : FileSessionManager}
    {sessionId : Int} {session : PutFileSession}
    (live : sessions.sessionList[sessionId]? = some (.put session)) :
    (putFileSession sessionId).FindsSession sessions :=
  Option.isSome_iff_exists.mpr ⟨session, findPutSession_eq_some.mpr live⟩

theorem TransSelf.findsSession_get {sessions : FileSessionManager}
    {sessionId : Int} {session : GetFileSession}
    (live : sessions.sessionList[sessionId]? = some (.get session)) :
    (getFileSession sessionId).FindsSession sessions :=
  Option.isSome_iff_exists.mpr ⟨session, findGetSession_eq_some.mpr live⟩

theorem TransSelf.findsSession_of_none {self : TransSelf}
    (untaken : self.sessionId = none) (sessions : FileSessionManager) :
    self.FindsSession sessions := by
  cases self with
  | putFileSession sessionId => cases untaken
  | getFileSession sessionId => cases untaken
  | putFile sessionId => trivial
  | getFile sessionId => trivial
  | removePath => trivial

/-! ## Sessions that stay -/

namespace FileSessionManager

/-- Every session stays, up to its progress, but for those that ended. -/
def KeepsBut (ended : Int → Prop) (first second : FileSessionManager) :
    Prop :=
  ∀ sessionId session, first.sessionList[sessionId]? = some session →
    ended sessionId ∨ ∃ later,
      second.sessionList[sessionId]? = some later ∧
        later.registered = session.registered

variable {ended : Int → Prop} {first second third : FileSessionManager}

namespace KeepsBut

theorem of_list (same : second.sessionList = first.sessionList) :
    KeepsBut ended first second :=
  fun _ session found => Or.inr ⟨session, by rw [same]; exact found, rfl⟩

theorem of_inserted (keyed : first.Keyed) {entry : Session}
    (inserted : second.sessionList =
      first.sessionList.insert first.nextId entry) :
    KeepsBut ended first second := by
  intro sessionId session found
  have bounds := keyed.bounds sessionId session found
  refine Or.inr ⟨session, ?_, rfl⟩
  rw [inserted, Table.lookup_insert_of_ne _ _ (by omega)]
  exact found

theorem of_setSession {sessionId : Int} {old session : Session}
    (found : first.sessionList[sessionId]? = some old)
    (same : session.registered = old.registered) :
    KeepsBut ended first (first.setSession sessionId session) := by
  intro other entry stored
  rw [FileSessionManager.setSession, Table.lookup_insert]
  split
  · rename_i here
    subst here
    rw [found] at stored
    cases stored
    exact Or.inr ⟨session, rfl, same⟩
  · exact Or.inr ⟨entry, stored, rfl⟩

/-- Removing a session ends it. -/
theorem removeSession (keeps : KeepsBut ended first second) (sessionId : Int)
    (ends : ∀ session, first.sessionList[sessionId]? = some session →
      ended sessionId) :
    KeepsBut ended first (second.removeSession sessionId) := by
  intro other session found
  by_cases same : sessionId = other
  · subst same
    exact Or.inl (ends session found)
  · refine (keeps other session found).imp_right ?_
    rintro ⟨later, kept, progress⟩
    refine ⟨later, ?_, progress⟩
    rw [FileSessionManager.removeSession, Table.lookup_erase_of_ne _ same]
    exact kept

theorem mono {weaker : Int → Prop} (keeps : KeepsBut ended first second)
    (implies : ∀ sessionId, ended sessionId → weaker sessionId) :
    KeepsBut weaker first second :=
  fun sessionId session found =>
    (keeps sessionId session found).imp_left (implies sessionId)

end KeepsBut

end FileSessionManager

/-- A lookup that finds its session still finds it, unless the session
ended. -/
theorem TransSelf.FindsSession.keep {self : TransSelf}
    {ended : Int → Prop} {first second : FileSessionManager}
    (finds : self.FindsSession first) (keeps : KeepsBut ended first second)
    (spared : ∀ sessionId, self.sessionId = some sessionId →
      ¬ended sessionId) : self.FindsSession second := by
  cases self with
  | putFileSession sessionId =>
      obtain ⟨session, found⟩ := Option.isSome_iff_exists.mp finds
      obtain gone | ⟨later, kept, progress⟩ :=
        keeps sessionId _ (findPutSession_eq_some.mp found)
      · exact absurd gone (spared sessionId rfl)
      · cases later with
        | put later => exact TransSelf.findsSession_put kept
        | get later => cases progress
  | getFileSession sessionId =>
      obtain ⟨session, found⟩ := Option.isSome_iff_exists.mp finds
      obtain gone | ⟨later, kept, progress⟩ :=
        keeps sessionId _ (findGetSession_eq_some.mp found)
      · exact absurd gone (spared sessionId rfl)
      · cases later with
        | put later => cases progress
        | get later => exact TransSelf.findsSession_get kept
  | putFile sessionId => trivial
  | getFile sessionId => trivial
  | removePath => trivial

/-! ## The start of a session transaction -/

/-- The request finds a session to use again, and no storage node to ask. -/
inductive Refused (server : Server) (connId : Int)
    (package : Package Message) : Int → Prop
  | put {request user group session}
      (content : package.content = some (.reqPutFileSession request))
      (manages : Manages server connId request.groupId user group)
      (found : (findPutSessionOf user.userId request.groupId
        request.filePath server.sessions).1 = .ok (some session))
      (sameMax : request.maxFragment = session.maxFragment)
      (noNode : server.nodes.findNode group.nodeId = none) :
      Refused server connId package session.sessionId
  | get {groupId filePath user group session storageFileId nodeId}
      (content : package.content =
        some (.reqGetFileSession groupId filePath))
      (acts : Acts server connId groupId user group)
      (member : group.isMember user.userId = true)
      (general : generalFileAt group (FilePath.ofText filePath) server =
        (.ok storageFileId, server))
      (stored : storageNodeOf storageFileId server = (.ok nodeId, server))
      (found : (findGetSessionOf user.userId groupId filePath
        server.sessions).1 = .ok (some session))
      (noNode : server.nodes.findNode nodeId = none) :
      Refused server connId package session.sessionId

theorem parse_reqGetFileSession {package : Package Message} {groupId : Int}
    {filePath : Text}
    (parsed : package.parseToProtocol asReqGetFileSession =
      .ok (groupId, filePath)) :
    package.content = some (.reqGetFileSession groupId filePath) := by
  obtain ⟨message, content, selected⟩ := content_of_parse parsed
  rw [content]
  unfold asReqGetFileSession at selected
  split at selected <;> simp_all

/-- The session that a user finds is live, under its own id. -/
theorem FileSessionManager.Keyed.live_of_findGetSessionOf
    {sessions : FileSessionManager} (keyed : sessions.Keyed)
    {userId groupId : Int} {filePath : Text} {session : GetFileSession}
    (found : (findGetSessionOf userId groupId filePath sessions).1 =
      .ok (some session)) :
    sessions.sessionList[session.sessionId]? = some (.get session) := by
  unfold findGetSessionOf at found
  split at found
  · rename_i other later looked
    have first : (sessions.findSession groupId filePath).1 =
        some (Session.get other) := by rw [looked]
    split at found
    · cases found
      obtain ⟨sessionId, live⟩ := findSession_live first
      have key := (keyed.bounds _ _ live).2.2
      change session.sessionId = sessionId at key
      rwa [key]
    · cases found
  · cases found

theorem findNode_of_getNode_error {nodes : StorageNodeManager}
    {nodeId : Int} {fault : Fault}
    (failed : nodes.getNode nodeId = .error fault) :
    nodes.findNode nodeId = none := by
  unfold StorageNodeManager.getNode at failed
  split at failed <;> simp_all

section Start

variable {before : Server} {owner : Int → Int} {connId : Int}
  {package : Package Message}

/-- The session that an upload registers has the next id. -/
theorem registerPutFile_sessionId (user : User) (group : SharingGroup)
    (request : ReqPutFileSession) (keyed : before.sessions.Keyed) :
    Action.Ensures (registerPutFile user group request) before
      (fun session _ => session.sessionId = before.sessions.nextId)
      (fun _ _ => True) := by
  simp only [registerPutFile, Action.ensures_bind, Action.ensures_check,
    Action.ensures_throwIf, Server.onFiles, Server.onSessions,
    Action.ensures_zoom]
  refine ⟨fun _ _ => ⟨fun _ => trivial, fun _ => ⟨fun _ _ =>
    ⟨fun _ => trivial, fun _ => ?_⟩, fun _ _ => trivial⟩⟩,
    fun _ _ => trivial⟩
  refine Action.ensures_of_forall (fun _ _ => ?_) fun _ _ => trivial
  refine Action.ensures_of_forall (fun _ _ => ?_) fun _ _ => trivial
  refine Action.ensures_of_forall (fun _ _ => ?_) fun _ _ => trivial
  obtain ⟨later, ran, sessionList, -⟩ := keyed.registerSession
    request.groupId request.filePath fun sessionId =>
      .put (PutFileSession.init sessionId user.userId request.groupId
        request.filePath request.maxFragment)
  refine Action.ensures_of_ok ran ⟨fun session got => ?_, fun _ _ => trivial⟩
  have found := findPutSession_of_getPutSession got
  rw [findPutSession_eq_some, sessionList, Table.lookup_insert_self] at found
  cases found
  rfl

/-- The session of a put request was found, or has the next id. -/
theorem putSession_origin (user : User) (group : SharingGroup)
    (request : ReqPutFileSession) (keyed : before.sessions.Keyed) :
    Action.Ensures (putSession user group request) before
      (fun session _ =>
        (findPutSessionOf user.userId request.groupId request.filePath
            before.sessions).1 = .ok (some session) ∧
          request.maxFragment = session.maxFragment ∨
        session.sessionId = before.sessions.nextId)
      (fun _ _ => True) := by
  have same := @findPutSessionOf_same before.sessions user.userId
    request.groupId request.filePath
  simp only [putSession, Action.ensures_bind, Server.onSessions,
    Action.ensures_zoom]
  refine (Action.ensures_self _ _).mono ?_ fun _ _ _ => trivial
  intro found sessions looked
  rw [looked] at same ⊢
  cases found with
  | none =>
      refine (registerPutFile_sessionId user group request
        (keyed.of_same same)).mono ?_ fun _ _ _ => trivial
      intro session later next
      exact Or.inr (next.trans same.nextId)
  | some session =>
      simp only [Action.ensures_bind, Action.ensures_throwIf,
        Action.ensures_pure]
      exact ⟨fun _ => trivial, fun sameMax =>
        Or.inl ⟨trivial, not_not.mp sameMax⟩⟩

/-- `PutFileSessionTrans::on_init` takes down a session that is there; when
it stops, removing the session that it took down ends no other session. -/
theorem PutFileSessionTrans.onInit_takes (owned : before.files.Owned owner)
    (keyed : before.sessions.Keyed)
    (trans : MultiplyPhaseTransaction TransSelf) :
    Action.Ensures (PutFileSessionTrans.onInit trans connId package)
      (Worker.startFrame before (.putFileSession 0))
      (fun _ frame =>
        KeepsBut (Refused before connId package) before.sessions
          frame.app.sessions ∧ frame.self.FindsSession frame.app.sessions)
      (fun _ frame => frame.waits = [] ∧ ∃ sessionId,
        frame.self = .putFileSession sessionId ∧
        KeepsBut (Refused before connId package) before.sessions
          (frame.app.sessions.removeSession sessionId)) := by
  have refused {later : FileSessionManager}
      (same : SameSessions before.sessions later) :
      KeepsBut (Refused before connId package) before.sessions
        (later.removeSession invalidId) := by
    refine (KeepsBut.of_list same.sessionList).removeSession _ ?_
    intro session found
    rw [keyed.not_found_invalidId] at found
    cases found
  simp only [PutFileSessionTrans.onInit, Action.ensures_bind,
    ensures_onApp, Server.getLoginUser, parse, managedGroup, Server.getNode,
    Action.ensures_check, ensures_setSelf, ensures_serviceSendProtocol,
    ensures_serviceWaitNextPhase, Worker.startFrame]
  refine ⟨fun user login => ⟨fun request parsed => ⟨fun group managed => ?_,
    fun _ _ => ?_⟩, fun _ _ => ?_⟩, fun _ _ => ?_⟩
  · obtain ⟨listed, manager⟩ := found_of_managed managed
    have manages : Manages before connId request.groupId user group :=
      ⟨⟨findLoginUser_of_getLoginUser login, listed⟩, manager⟩
    have run := putSession_run user group request owned keyed
    refine (Action.ensures_self (putSession user group request) before).mono
      ?_ ?_
    · intro session later ran
      have origin := (putSession_origin user group request keyed).of_ok ran
      cases run.of_ok ran with
      | reused proceeds live same =>
          refine ⟨fun node _ => ⟨.of_list same.sessionList, ?_⟩,
            fun fault failed => ⟨trivial, _, rfl, ?_⟩⟩
          · apply TransSelf.findsSession_put
            rw [same.sessionList]
            exact live
          · refine (KeepsBut.of_list same.sessionList).removeSession _ ?_
            intro _ _
            rcases origin with ⟨found, sameMax⟩ | next
            · exact .put (parse_reqPutFileSession.mp parsed) manages found
                sameMax (findNode_of_getNode_error failed)
            · rw [next, keyed.not_found_nextId] at live
              cases live
      | registered uploads stored sessionList nextId =>
          refine ⟨fun node _ => ⟨.of_inserted keyed sessionList, ?_⟩,
            fun fault failed => ⟨trivial, _, rfl, ?_⟩⟩
          · apply TransSelf.findsSession_put
            rw [sessionList]
            exact Table.lookup_insert_self ..
          · refine (KeepsBut.of_inserted keyed sessionList).removeSession _
              ?_
            intro session found
            cases keyed.not_found_nextId.symm.trans found
    · intro fault later ran
      cases run.of_error ran with
      | refused stopped same => exact ⟨trivial, _, rfl, refused same⟩
      | unlisted uploads stored same =>
          exact ⟨trivial, _, rfl, refused same⟩
  · exact ⟨trivial, _, rfl, refused ⟨rfl, rfl⟩⟩
  · exact ⟨trivial, _, rfl, refused ⟨rfl, rfl⟩⟩
  · exact ⟨trivial, _, rfl, refused ⟨rfl, rfl⟩⟩

/-- The session of a get request was found, or is new. -/
theorem getSession_takes (keyed : before.sessions.Keyed)
    (userId groupId : Int) (filePath : Text) :
    Action.Ensures (getSession userId groupId filePath) before
      (fun sessionId later => later.nodes = before.nodes ∧
        KeepsBut (fun _ => False) before.sessions later.sessions ∧
        (TransSelf.getFileSession sessionId).FindsSession later.sessions ∧
        ((∃ session, (findGetSessionOf userId groupId filePath
            before.sessions).1 = .ok (some session) ∧
            session.sessionId = sessionId) ∨
          sessionId = before.sessions.nextId))
      (fun _ later => SameSessions before.sessions later.sessions) := by
  have same := @findGetSessionOf_same before.sessions userId groupId filePath
  simp only [getSession, Action.ensures_bind, Server.onSessions,
    Action.ensures_zoom]
  refine (Action.ensures_self _ _).mono ?_ ?_
  · intro found sessions looked
    rw [looked] at same
    cases found with
    | some session =>
        have live := keyed.live_of_findGetSessionOf (by rw [looked])
        refine Action.ensures_pure.mpr ⟨rfl, .of_list same.sessionList, ?_,
          Or.inl ⟨session, by rw [looked], rfl⟩⟩
        apply TransSelf.findsSession_get
        rw [same.sessionList]
        exact live
    | none =>
        obtain ⟨later, ran, sessionList, nextId⟩ :=
          (keyed.of_same same).registerSession groupId filePath
            fun sessionId => .get (GetFileSession.init sessionId userId
              groupId filePath)
        rw [same.sessionList, same.nextId] at sessionList
        refine Action.ensures_zoom.mpr (Action.ensures_of_ok ran ?_)
        refine ⟨rfl, .of_inserted keyed sessionList, ?_, Or.inr same.nextId⟩
        apply TransSelf.findsSession_get
        rw [sessionList, same.nextId]
        exact Table.lookup_insert_self ..
  · intro fault sessions looked
    rw [looked] at same
    exact same

/-- `GetFileSessionTrans::on_init` takes down a session that is there; when
it stops, removing the session that it took down ends no other session. -/
theorem GetFileSessionTrans.onInit_takes (keyed : before.sessions.Keyed)
    (trans : MultiplyPhaseTransaction TransSelf) :
    Action.Ensures (GetFileSessionTrans.onInit trans connId package)
      (Worker.startFrame before (.getFileSession 0))
      (fun _ frame =>
        KeepsBut (Refused before connId package) before.sessions
          frame.app.sessions ∧ frame.self.FindsSession frame.app.sessions)
      (fun _ frame => frame.waits = [] ∧ ∃ sessionId,
        frame.self = .getFileSession sessionId ∧
        KeepsBut (Refused before connId package) before.sessions
          (frame.app.sessions.removeSession sessionId)) := by
  have refused {later : FileSessionManager}
      (same : SameSessions before.sessions later) :
      KeepsBut (Refused before connId package) before.sessions
        (later.removeSession invalidId) := by
    refine (KeepsBut.of_list same.sessionList).removeSession _ ?_
    intro session found
    rw [keyed.not_found_invalidId] at found
    cases found
  simp only [GetFileSessionTrans.onInit, Action.ensures_bind,
    ensures_onApp, Server.getLoginUser, Server.getGroup, parse,
    Server.getNode, Action.ensures_check, Action.ensures_throwIf,
    ensures_setSelf, ensures_serviceSendProtocol,
    ensures_serviceWaitNextPhase, Worker.startFrame]
  have stopped : True ∧ ∃ sessionId,
      TransSelf.getFileSession 0 = .getFileSession sessionId ∧
      KeepsBut (Refused before connId package) before.sessions
        (before.sessions.removeSession sessionId) :=
    ⟨trivial, 0, rfl, refused ⟨rfl, rfl⟩⟩
  refine ⟨fun user login => ⟨fun request parsed =>
    ⟨fun group listed => ⟨fun _ => stopped, fun member => ?_⟩,
    fun _ _ => stopped⟩, fun _ _ => stopped⟩, fun _ _ => stopped⟩
  obtain ⟨groupId, filePath⟩ := request
  have acts : Acts before connId groupId user group :=
    ⟨findLoginUser_of_getLoginUser login, findGroup_of_getGroup listed⟩
  have general := after_generalFileAt group (FilePath.ofText filePath) before
  refine (Action.ensures_self _ _).mono ?_ fun _ _ ran => ?_
  · intro storageFileId later ran
    rw [ran] at general
    change later = before at general
    subst general
    have stored := after_storageNodeOf storageFileId later
    refine (Action.ensures_self _ _).mono ?_ fun _ _ ranNode => ?_
    · intro nodeId app ranNode
      rw [ranNode] at stored
      change app = later at stored
      subst stored
      refine (getSession_takes keyed user.userId groupId filePath).mono ?_ ?_
      · rintro sessionId last ⟨nodes, keeps, finds, origin⟩
        refine ⟨fun node _ => ⟨keeps.mono fun _ => False.elim, finds⟩,
          fun fault failed => ⟨trivial, sessionId, rfl, ?_⟩⟩
        refine (keeps.mono fun _ => False.elim).removeSession _ ?_
        intro session there
        rcases origin with ⟨session, found, rfl⟩ | rfl
        · rw [nodes] at failed
          exact .get (parse_reqGetFileSession parsed) acts
            (Bool.not_eq_false _ ▸ member) ran ranNode found
            (findNode_of_getNode_error failed)
        · rw [keyed.not_found_nextId] at there
          cases there
      · intro fault last same
        exact ⟨trivial, _, rfl, refused same⟩
    · rw [ranNode] at stored
      subst stored
      exact stopped
  · rw [ran] at general
    subst general
    exact stopped

/-- A fragment is read without a change of the managers. -/
theorem GetFileTrans.onInit_reads
    (trans : MultiplyPhaseTransaction TransSelf) :
    Action.Ensures (GetFileTrans.onInit trans connId package)
      (Worker.startFrame before (.getFile 0))
      (fun _ frame => frame.app = before ∧
        ∃ sessionId, frame.self = .getFile sessionId)
      (fun _ frame => frame.app = before ∧
        ∃ sessionId, frame.self = .getFile sessionId) := by
  simp only [GetFileTrans.onInit, Action.ensures_bind, ensures_onApp,
    Server.getLoginUser, Server.getGroup, Server.getNode, parse,
    Action.ensures_check, Action.ensures_throwIf, ensures_setSelf,
    ensures_serviceSendProtocol, ensures_serviceWaitNextPhase,
    Worker.startFrame]
  have unread : True ∧
      ∃ sessionId, TransSelf.getFile 0 = .getFile sessionId :=
    ⟨trivial, 0, rfl⟩
  refine ⟨fun user login => ⟨fun request parsed => ⟨fun session got =>
    ⟨fun _ => unread, fun own => ⟨fun group listed => ?_,
      fun _ _ => unread⟩⟩, fun _ _ => unread⟩, fun _ _ => unread⟩,
    fun _ _ => unread⟩
  have general := after_generalFileAt group
    (FilePath.ofText session.filePath) before
  refine (Action.ensures_self _ _).mono ?_ fun _ _ ran => ?_
  · intro storageFileId later ran
    rw [ran] at general
    change later = before at general
    have stored := after_storageNodeOf storageFileId later
    refine (Action.ensures_self _ _).mono ?_ fun _ _ ranNode => ?_
    · intro nodeId app ranNode
      rw [ranNode] at stored
      change app = later at stored
      have same := stored.trans general
      exact ⟨fun _ _ => ⟨same, _, rfl⟩, fun _ _ => ⟨same, _, rfl⟩⟩
    · rw [ranNode] at stored
      exact ⟨stored.trans general, _, rfl⟩
  · rw [ran] at general
    exact ⟨general, 0, rfl⟩

/-- `on_init` of every class takes down a session that is there, if any;
when it stops, the clean-up of its error handler ends no other session. -/
theorem onInit_takes (owned : before.files.Owned owner)
    (keyed : before.sessions.Keyed)
    (trans : MultiplyPhaseTransaction TransSelf)
    (registered : findTransaction package.command =
      some (.multiplyPhase trans.self)) :
    Action.Ensures (onInit trans connId package)
      (Worker.startFrame before trans.self)
      (fun _ frame =>
        KeepsBut (Refused before connId package) before.sessions
          frame.app.sessions ∧ frame.self.FindsSession frame.app.sessions)
      (fun _ frame =>
        (frame.self.sessionId = none ∧
          KeepsBut (Refused before connId package) before.sessions
            frame.app.sessions) ∨
        frame.waits = [] ∧ ∃ sessionId,
          frame.self.sessionId = some sessionId ∧
          KeepsBut (Refused before connId package) before.sessions
            (frame.app.sessions.removeSession sessionId)) := by
  have self : trans.self = .putFileSession 0 ∨ trans.self = .putFile 0 ∨
      trans.self = .getFileSession 0 ∨ trans.self = .getFile 0 ∨
        trans.self = .removePath := by
    generalize trans.self = self at registered
    unfold findTransaction at registered
    split at registered <;> cases registered <;> simp
  unfold onInit
  rcases self with self | self | self | self | self <;> rw [self]
  · refine (PutFileSessionTrans.onInit_takes owned keyed trans).mono
      (fun _ _ takes => takes) ?_
    rintro fault frame ⟨waits, sessionId, taken, keeps⟩
    exact Or.inr ⟨waits, sessionId, by rw [taken]; rfl, keeps⟩
  · refine (PutFileTrans.onInit_run trans connId package before _).mono ?_ ?_
    · intro _ frame run
      cases run with
      | forwarded advances listed known =>
          exact ⟨.of_setSession (findPutSession_eq_some.mp advances.found)
            rfl, trivial⟩
    · intro fault frame run
      cases run with
      | refused => exact Or.inl ⟨rfl, .of_list rfl⟩
      | lost advances missing =>
          exact Or.inl ⟨rfl, .of_setSession
            (findPutSession_eq_some.mp advances.found) rfl⟩
  · refine (GetFileSessionTrans.onInit_takes keyed trans).mono
      (fun _ _ takes => takes) ?_
    rintro fault frame ⟨waits, sessionId, taken, keeps⟩
    exact Or.inr ⟨waits, sessionId, by rw [taken]; rfl, keeps⟩
  · refine (GetFileTrans.onInit_reads trans).mono ?_ ?_
    · rintro _ frame ⟨app, sessionId, taken⟩
      exact ⟨.of_list (by rw [app]), by rw [taken]; trivial⟩
    · rintro fault frame ⟨app, sessionId, taken⟩
      exact Or.inl ⟨by rw [taken]; rfl, .of_list (by rw [app])⟩
  · have keeps : KeepsBut (Refused before connId package) before.sessions
        before.sessions := .of_list rfl
    simp only [RemovePathTrans.onInit, Action.ensures_bind, ensures_onApp,
      Server.getLoginUser, parse, managedGroup, Server.onFiles,
      Action.ensures_check, Action.ensures_zoom, Worker.startFrame]
    exact ⟨fun _ _ => ⟨fun _ _ => ⟨fun _ _ => Action.ensures_of_forall
      (fun _ _ => ⟨keeps, trivial⟩) fun _ _ => Or.inl ⟨rfl, keeps⟩,
      fun _ _ => Or.inl ⟨rfl, keeps⟩⟩, fun _ _ => Or.inl ⟨rfl, keeps⟩⟩,
      fun _ _ => Or.inl ⟨rfl, keeps⟩⟩

end Start

/-! ## The response to a session transaction -/

theorem setPutNodeSession_keeps (sessions : FileSessionManager)
    (sessionId nodeSessionId : Int) {ended : Int → Prop} :
    Action.Ensures (setPutNodeSession sessionId nodeSessionId) sessions
      (fun _ later => KeepsBut ended sessions later)
      (fun fault _ => fault = .undefined) := by
  unfold Action.Ensures setPutNodeSession
  cases found : sessions.findPutSession sessionId with
  | none => rfl
  | some session =>
      exact .of_setSession (findPutSession_eq_some.mp found) rfl

theorem setGetNodeSession_keeps (sessions : FileSessionManager)
    (sessionId nodeSessionId : Int) {ended : Int → Prop} :
    Action.Ensures (setGetNodeSession sessionId nodeSessionId) sessions
      (fun _ later => KeepsBut ended sessions later)
      (fun fault _ => fault = .undefined) := by
  unfold Action.Ensures setGetNodeSession
  cases found : sessions.findGetSession sessionId with
  | none => rfl
  | some session =>
      exact .of_setSession (findGetSession_eq_some.mp found) rfl

/-- `PutFileSessionTrans::on_active` ends its session when the response has an
error. -/
theorem PutFileSessionTrans.onActive_keeps {before : Server}
    {trans : MultiplyPhaseTransaction TransSelf} {sessionId : Int}
    (self : trans.self = .putFileSession sessionId)
    (package : Package Message) :
    Action.Ensures (PutFileSessionTrans.onActive trans sessionId package)
      (Worker.startFrame before trans.self)
      (fun _ frame => frame.waits = [] ∧
        KeepsBut (fun other => trans.self.sessionId = some other ∧
          ¬trans.self.Succeeds package) before.sessions frame.app.sessions)
      (fun fault frame => fault ≠ .undefined →
        frame.waits = [] ∧ frame.self = trans.self ∧ frame.app = before ∧
          ¬trans.self.Succeeds package) := by
  rw [self]
  simp only [PutFileSessionTrans.onActive, parse, Action.ensures_bind,
    Action.ensures_check]
  refine ⟨fun response parsed => ?_, fun fault failed _ =>
    ⟨rfl, rfl, rfl, ?_⟩⟩
  · cases error : response.error with
    | some info =>
        simp only [Action.ensures_bind, ensures_onApp, removeSession,
          sendBackMessage, Server.onSessions, Action.ensures_zoom,
          Action.ensures_modify, ensures_sendBackProtocol]
        refine ⟨rfl, (KeepsBut.of_list rfl).removeSession sessionId ?_⟩
        rintro _ _
        refine ⟨rfl, ?_⟩
        rintro ⟨other, same, success⟩
        rw [parsed] at same
        cases same
        rw [error] at success
        cases success
    | none =>
        simp only [Action.ensures_bind, ensures_onApp, sendBackMessage,
          Server.onSessions, Action.ensures_zoom, ensures_sendBackProtocol]
        exact (setPutNodeSession_keeps _ _ _).mono
          (fun _ _ keeps => ⟨rfl, keeps⟩)
          fun _ _ same defined => absurd same defined
  · rintro ⟨other, same, -⟩
    rw [failed] at same
    cases same

/-- `GetFileSessionTrans::on_active` ends its session when the response has an
error. -/
theorem GetFileSessionTrans.onActive_keeps {before : Server}
    {trans : MultiplyPhaseTransaction TransSelf} {sessionId : Int}
    (self : trans.self = .getFileSession sessionId)
    (package : Package Message) :
    Action.Ensures (GetFileSessionTrans.onActive trans sessionId package)
      (Worker.startFrame before trans.self)
      (fun _ frame => frame.waits = [] ∧
        KeepsBut (fun other => trans.self.sessionId = some other ∧
          ¬trans.self.Succeeds package) before.sessions frame.app.sessions)
      (fun fault frame => fault ≠ .undefined →
        frame.waits = [] ∧ frame.self = trans.self ∧ frame.app = before ∧
          ¬trans.self.Succeeds package) := by
  rw [self]
  simp only [GetFileSessionTrans.onActive, parse, Action.ensures_bind,
    Action.ensures_check]
  refine ⟨fun response parsed => ?_, fun fault failed _ =>
    ⟨rfl, rfl, rfl, ?_⟩⟩
  · cases error : response.error with
    | some info =>
        simp only [Action.ensures_bind, ensures_onApp, removeSession,
          sendBackMessage, Server.onSessions, Action.ensures_zoom,
          Action.ensures_modify, ensures_sendBackProtocol]
        refine ⟨rfl, (KeepsBut.of_list rfl).removeSession sessionId ?_⟩
        rintro _ _
        refine ⟨rfl, ?_⟩
        rintro ⟨other, same, success⟩
        rw [parsed] at same
        cases same
        rw [error] at success
        cases success
    | none =>
        simp only [Action.ensures_bind, ensures_onApp, sendBackMessage,
          Server.onSessions, Action.ensures_zoom, ensures_sendBackProtocol]
        exact (setGetNodeSession_keeps _ _ _).mono
          (fun _ _ keeps => ⟨rfl, keeps⟩)
          fun _ _ same defined => absurd same defined
  · rintro ⟨other, same, -⟩
    rw [failed] at same
    cases same

/-- `on_active` does not wait again.  It ends its own session when the
response has an error; a response that does not parse is left to the error
handler. -/
theorem onActive_keeps {before : Server}
    (trans : MultiplyPhaseTransaction TransSelf) (connId : Int)
    (package : Package Message) :
    Action.Ensures (onActive trans connId package)
      (Worker.startFrame before trans.self)
      (fun _ frame => frame.waits = [] ∧
        KeepsBut (fun sessionId => trans.self.sessionId = some sessionId ∧
          ¬trans.self.Succeeds package) before.sessions frame.app.sessions)
      (fun fault frame => fault ≠ .undefined →
        frame.waits = [] ∧ frame.self = trans.self ∧ frame.app = before ∧
          ((trans.self.sessionId = none) ∨ ¬trans.self.Succeeds package)) := by
  unfold onActive
  split <;> rename_i sessionId self
  · exact (PutFileSessionTrans.onActive_keeps self package).mono
      (fun _ _ kept => kept) fun _ _ kept defined =>
        ⟨(kept defined).1, (kept defined).2.1, (kept defined).2.2.1,
          Or.inr (kept defined).2.2.2⟩
  · rw [self]
    simp only [PutFileTrans.onActive, Server.getLoginUser, parse,
      Action.ensures_bind, ensures_onApp, Action.ensures_check,
      sendBackMessage, ensures_sendBackProtocol]
    exact ⟨fun _ _ => ⟨fun _ _ => ⟨rfl, .of_list rfl⟩,
      fun _ _ _ => ⟨rfl, rfl, rfl, Or.inl rfl⟩⟩,
      fun _ _ _ => ⟨rfl, rfl, rfl, Or.inl rfl⟩⟩
  · exact (GetFileSessionTrans.onActive_keeps self package).mono
      (fun _ _ kept => kept) fun _ _ kept defined =>
        ⟨(kept defined).1, (kept defined).2.1, (kept defined).2.2.1,
          Or.inr (kept defined).2.2.2⟩
  · rw [self]
    simp only [GetFileTrans.onActive, Server.getLoginUser, parse,
      Action.ensures_bind, ensures_onApp, Action.ensures_check,
      sendBackMessage, ensures_sendBackProtocol]
    exact ⟨fun _ _ => ⟨fun _ _ => ⟨rfl, .of_list rfl⟩,
      fun _ _ _ => ⟨rfl, rfl, rfl, Or.inl rfl⟩⟩,
      fun _ _ _ => ⟨rfl, rfl, rfl, Or.inl rfl⟩⟩
  · exact Action.ensures_pure.mpr ⟨rfl, .of_list rfl⟩

/-! ## Handlers that leave the sessions alone -/

/-- The handler leaves the sessions alone. -/
abbrev LeavesSessions {α : Type} (handler : Handler Server Unit Message α) :
    Prop :=
  Preserves (fun frame => frame.app.sessions) handler

theorem onGroup_sessions {α : Type} (groupId : Int)
    (action : Action Fault SharingGroup α) (server : Server) :
    ((Server.onGroup groupId action).after server).sessions =
      server.sessions := by
  simp only [Server.onGroup, Action.after]
  split <;> rfl

/-- A registered one-phase handler leaves the sessions alone. -/
theorem onePhase_leavesSessions {command : Int}
    {handler : Int → Int → Package Message →
      Handler Server Unit Message Unit}
    (registered : findTransaction command = some (.onePhase handler))
    (now connId : Int) (package : Package Message) :
    LeavesSessions (handler now connId package) := by
  have reads {α : Type} (view : Server → Except Fault α) :
      LeavesSessions (onApp (Action.check view)) := .onApp fun _ => rfl
  have users {α : Type} (action : Action Fault UserManager α) :
      LeavesSessions (onApp (Server.onUsers action)) := .onApp fun _ => rfl
  have roles (groupId : Int) (action : Action Fault SharingGroup Unit) :
      LeavesSessions (onApp (Server.onGroup groupId action)) :=
    .onApp fun frame => onGroup_sessions groupId action frame.app
  have answers (message : Message) :
      LeavesSessions (sendBackProtocol connId message
        package.triggerSource) :=
    .sendProtocol fun _ _ => rfl
  unfold findTransaction at registered
  split at registered <;> cases registered
  · exact .bind (.check _) fun ⟨_, _⟩ => .bind (reads _) fun _ =>
      .bind (users _) fun _ => answers _
  · exact .bind (.check _) fun ⟨_, _⟩ => .bind (users _) fun _ => answers _
  · exact .bind (.check _) fun ⟨_, _⟩ => .bind (users _) fun _ =>
      .bind (.throwIf _ _) fun _ => answers _
  · exact .bind (.check _) fun _ => .bind (reads _) fun _ =>
      .bind (.read _) fun _ => .bind (.throwIf _ _) fun _ =>
        .bind (users _) fun _ => answers _
  · exact .bind (.check _) fun ⟨_, _⟩ => .bind (reads _) fun _ =>
      .bind (.check _) fun _ => answers _
  · refine .bind (.check _) fun groupName => .bind (reads _) fun user =>
      .bind (.onApp fun frame => ?_) fun _ => answers _
    exact registerGroup_sessions frame.app user.userId groupName
  · exact .bind (.check _) fun ⟨_, _⟩ => .bind (reads _) fun _ =>
      .bind (.check _) fun _ => answers _
  · exact .bind (.check _) fun _ => .bind (reads _) fun _ =>
      .bind (roles _ _) fun _ => answers _
  · exact .bind (.check _) fun ⟨_, _⟩ => .bind (reads _) fun _ =>
      .bind (reads _) fun _ => .bind (roles _ _) fun _ => answers _
  · exact .bind (.check _) fun ⟨_, _⟩ => .bind (reads _) fun _ =>
      .bind (reads _) fun _ => .bind (roles _ _) fun _ => answers _
  · exact .bind (.check _) fun ⟨_, _⟩ => .bind (reads _) fun _ =>
      .bind (reads _) fun _ => .bind (.throwIf _ _) fun _ =>
        .bind (roles _ _) fun _ => answers _
  · exact .bind (.check _) fun ⟨_, _⟩ => .bind (reads _) fun _ =>
      .bind (reads _) fun _ => .bind (.onApp fun _ => rfl) fun _ =>
        answers _
  · refine .bind (.check _) fun ⟨_, _⟩ => .bind (reads _) fun _ =>
      .bind (reads _) fun _ => .bind (.throwIf _ _) fun _ =>
        .bind (.check _) fun _ => .bind (.check _) fun file => ?_
    split
    · exact .bind (.check _) fun _ => answers _
    · exact .throw _

theorem internal_sessions (call : ServerCall) (server : Server) :
    ((internal call).after server).sessions = server.sessions := by
  cases call with
  | registerRootUser userName password =>
      simp only [internal, Action.after_bind_pure]
      rfl
  | registerRootGroup userId groupName =>
      simp only [internal, Action.after_bind_pure]
      exact registerGroup_sessions server userId groupName
  | registerNode ip port serviceId => rfl
  | setService nodeId serviceId => rfl
  | kickOutUser connId => rfl
  | serialize => rfl

/-! ## Steps -/

/-- The step hands a response without an error to `on_active` of a session
transaction only when its session is there. -/
def LooksUpSession (worker : ServerWorker) (event : ServerEvent) : Prop :=
  ∀ now connId serviceId package waiting,
    event = .worker (.receive now connId serviceId package) →
    worker.waitingTransaction package = some waiting →
    waiting.fits connId serviceId package.command = true →
    waiting.self.Succeeds package →
    waiting.self.FindsSession worker.app.sessions

/-- The step ends the session as that of the transaction: its wait times out,
its response has an error or does not parse, or it found the session and no
storage node when it started. -/
inductive Ends (worker : ServerWorker) : ServerEvent → Int → Int → Prop
  | timeout {now timerId timer waiting sessionId}
      (due : worker.dueTimer now timerId = some timer)
      (registered : worker.transList[timer.transId]? = some waiting)
      (taken : waiting.self.sessionId = some sessionId) :
      Ends worker (.worker (.expire now timerId)) waiting.id sessionId
  | failure {now connId serviceId package waiting sessionId}
      (answers : worker.waitingTransaction package = some waiting)
      (fits : waiting.fits connId serviceId package.command = true)
      (taken : waiting.self.sessionId = some sessionId)
      (fails : ¬waiting.self.Succeeds package) :
      Ends worker (.worker (.receive now connId serviceId package))
        waiting.id sessionId
  | refused {now connId serviceId package sessionId}
      (starts : worker.waitingTransaction package = none)
      (refused : Refused worker.app connId package sessionId) :
      Ends worker (.worker (.receive now connId serviceId package))
        worker.nextTransId sessionId

/-- The step ends no session that another registered transaction has taken
down. -/
def EndsUnshared (worker : ServerWorker) (event : ServerEvent) : Prop :=
  ∀ transId sessionId, Ends worker event transId sessionId →
    ∀ (other : Int) trans, worker.transList[other]? = some trans →
      trans.self.sessionId = some sessionId → other = transId

/-- The lookup of a transaction in the managers of the server. -/
def FindsIn (self : TransSelf) (server : Server) : Prop :=
  self.FindsSession server.sessions

section Step

variable {worker later : ServerWorker} {event : ServerEvent}

theorem othersLinked {own : Int} {after : Server} {ended : Int → Prop}
    (before : worker.Linked FindsIn) (unshared : EndsUnshared worker event)
    (keeps : KeepsBut ended worker.app.sessions after.sessions)
    (ends : ∀ sessionId, ended sessionId →
      Ends worker event own sessionId) :
    worker.OthersLinked FindsIn own after := by
  intro transId trans different found
  refine TransSelf.FindsSession.keep (before transId trans found) keeps ?_
  intro sessionId taken gone
  exact different
    (unshared own sessionId (ends sessionId gone) transId trans found taken)

variable {messageSize : Message → Nat}

/-- `on_error` removes the session of its transaction. -/
theorem onError_sessions (failed : MultiplyPhaseTransaction TransSelf)
    (connId : Int) (errorInfo : Foundation.ErrorInfo)
    (frame : Frame Server TransSelf Message) :
    ((onError messageSize failed connId errorInfo).after
        frame).app.sessions =
      match failed.self.sessionId with
      | some sessionId => frame.app.sessions.removeSession sessionId
      | none => frame.app.sessions := by
  unfold onError
  cases failed.self <;> rfl

theorem onError_self (failed : MultiplyPhaseTransaction TransSelf)
    (connId : Int) (errorInfo : Foundation.ErrorInfo)
    (frame : Frame Server TransSelf Message) :
    ((onError messageSize failed connId errorInfo).after frame).self =
      frame.self := by
  unfold onError
  split <;> rfl

theorem onError_ok (failed : MultiplyPhaseTransaction TransSelf)
    (connId : Int) (errorInfo : Foundation.ErrorInfo)
    (frame : Frame Server TransSelf Message) :
    onError messageSize failed connId errorInfo frame =
      (.ok (), (onError messageSize failed connId errorInfo).after
        frame) := by
  unfold onError
  cases failed.self <;> rfl

/-- The error handler of a session transaction removes its session. -/
theorem onError_keeps {failed : MultiplyPhaseTransaction TransSelf}
    {first : FileSessionManager} {ended : Int → Prop} {connId : Int}
    {errorInfo : Foundation.ErrorInfo}
    {frame : Frame Server TransSelf Message}
    (keeps : KeepsBut ended first frame.app.sessions)
    (ends : ∀ sessionId, failed.self.sessionId = some sessionId →
      ended sessionId) :
    KeepsBut ended first ((onError messageSize failed connId
      errorInfo).after frame).app.sessions := by
  rw [onError_sessions]
  cases taken : failed.self.sessionId with
  | none => exact keeps
  | some sessionId =>
      exact keeps.removeSession sessionId fun _ _ => ends sessionId taken

theorem linked_receive {now connId serviceId : Int}
    {package : Package Message} (owned : ∃ owner, worker.app.files.Owned owner)
    (keyed : worker.app.sessions.Keyed) (before : worker.Linked FindsIn)
    (unshared : EndsUnshared worker
      (.worker (.receive now connId serviceId package)))
    (received : Worker.receive (program messageSize) now connId serviceId
      package worker = some later) : later.Linked FindsIn := by
  obtain ⟨owner, owned⟩ := owned
  refine before.receive ?_ ?_ ?_ received
  · intro starts handler registered transId trans found
    have kept := onePhase_leavesSessions registered now connId package
      (Worker.startFrame worker.app ())
    change Server.sessions _ = worker.app.sessions at kept
    unfold FindsIn
    rw [kept]
    exact before transId trans found
  · intro starts factory trans registered self transId
    subst self
    refine (onInit_takes owned keyed trans registered).mono ?_ ?_
    · rintro _ frame ⟨keeps, finds⟩
      rw [transId]
      exact ⟨othersLinked before unshared keeps fun _ => .refused starts,
        fun _ => finds⟩
    · rintro fault frame outcome - failed self errorInfo last rfl
      rw [transId, program_onError]
      rcases outcome with ⟨untaken, keeps⟩ | ⟨waits, sessionId, taken, keeps⟩
      · refine ⟨othersLinked before unshared (onError_keeps keeps ?_)
          fun _ => .refused starts, Or.inr ?_⟩
        · intro sessionId taken
          rw [self, untaken] at taken
          cases taken
        · unfold FindsIn
          rw [onError_self]
          exact TransSelf.findsSession_of_none untaken _
      · refine ⟨othersLinked before unshared ?_ fun _ => .refused starts,
          Or.inl ⟨waits, ?_⟩⟩
        · rw [onError_sessions, self, taken]
          exact keeps
        · rw [onError_waits]
          rfl
  · intro waiting answers fits
    have ends (sessionId : Int) (ended : waiting.self.sessionId =
        some sessionId ∧ ¬waiting.self.Succeeds package) :
        Ends worker (.worker (.receive now connId serviceId package))
          waiting.id sessionId :=
      .failure answers fits ended.1 ended.2
    refine (onActive_keeps waiting.clearWaitingState connId package).mono
      ?_ ?_
    · rintro _ frame ⟨waits, keeps⟩
      exact ⟨othersLinked before unshared keeps ends, fun still =>
        absurd waits still⟩
    · rintro fault frame outcome defined failed self errorInfo last rfl
      obtain ⟨waits, sameSelf, app, fails⟩ := outcome defined
      rw [program_onError]
      refine ⟨othersLinked before unshared (onError_keeps ?_ ?_) ends,
        Or.inl ⟨waits, ?_⟩⟩
      · change KeepsBut _ _ frame.app.sessions
        rw [app]
        exact .of_list rfl
      · intro sessionId taken
        rw [self, sameSelf] at taken
        refine ⟨taken, fails.resolve_left fun untaken => ?_⟩
        rw [untaken] at taken
        cases taken
      · rw [onError_waits]
        rfl

theorem linked_expire {now timerId : Int} (before : worker.Linked FindsIn)
    (unshared : EndsUnshared worker (.worker (.expire now timerId)))
    (expired : Worker.processExpiryTimer (program messageSize) now timerId
      worker = some later) : later.Linked FindsIn := by
  refine before.expire ?_ expired
  intro timer waiting due registered
  refine Action.ensures_of_ok (onError_ok waiting.clearWaitingState
    waiting.waitConnId _ _) ⟨?_, fun still => ?_⟩
  · have ends (sessionId : Int)
        (taken : waiting.self.sessionId = some sessionId) :
        Ends worker (.worker (.expire now timerId)) waiting.id sessionId :=
      .timeout due registered taken
    refine othersLinked before unshared (onError_keeps ?_ ?_) ends
    · exact .of_list rfl
    · exact fun _ taken => taken
  · rw [onError_waits] at still
    exact absurd rfl still

/-- A step that ends no shared session keeps every registered transaction
linked to its session. -/
theorem linked_step
    (reachable : (serverMachine messageSize).Reachable worker)
    (before : worker.Linked FindsIn) (unshared : EndsUnshared worker event)
    (stepped : (serverMachine messageSize).step worker event =
      some later) : later.Linked FindsIn := by
  cases event with
  | restart rest =>
      cases stepped
      intro transId trans found
      simp [Worker.init] at found
  | worker event =>
      cases event with
      | receive now connId serviceId package =>
          obtain ⟨owner, forest⟩ := (Sound.of_reachable reachable).running
          exact linked_receive ⟨owner, forest.owned⟩
            (keyed_of_reachable reachable) before unshared stepped
      | internal call =>
          have called : Worker.callInternal (program messageSize) call
              worker = some later := stepped
          rw [Worker.eq_of_callInternal called]
          intro transId trans found
          change trans.self.FindsSession
            ((internal call).after worker.app).sessions
          rw [internal_sessions]
          exact before transId trans found
      | expire now timerId => exact linked_expire before unshared stepped

end Step

/-! ## Runs -/

theorem registered_of_waiting {worker : ServerWorker}
    {package : Package Message}
    {waiting : MultiplyPhaseTransaction TransSelf}
    (answers : worker.waitingTransaction package = some waiting) :
    ∃ transId : Int, worker.transList[transId]? = some waiting := by
  unfold Worker.waitingTransaction Worker.findBoundTransaction at answers
  split at answers
  · split at answers
    · cases answers
    · exact ⟨_, answers⟩
  · cases answers

/-- In a run none of whose steps ends a session that another registered
transaction has taken down, every response without an error finds the session
of its transaction, in every state passed through. -/
theorem looksUpSession_throughout {messageSize : Message → Nat}
    {events : List ServerEvent}
    (meets : (serverMachine messageSize).StepsMeet EndsUnshared events) :
    (serverMachine messageSize).Throughout
      (fun worker => ∀ event, LooksUpSession worker event) events := by
  rintro first second rfl worker reaches event
  have linked : worker.Linked FindsIn := by
    refine Machine.Reaches.induction
      (motive := fun events worker =>
        (serverMachine messageSize).StepsMeet EndsUnshared events →
          worker.Linked FindsIn) ?_ ?_ reaches meets.of_append
    · intro _ transId trans found
      simp [serverMachine, Worker.init] at found
    · intro events worker event next reached before stepped meets
      exact linked_step ⟨events, reached⟩ (before meets.of_snoc)
        (meets.last reached) stepped
  intro now connId serviceId package waiting same answers fits success
  obtain ⟨transId, registered⟩ := registered_of_waiting answers
  exact linked transId waiting registered

/-! ## Two requests for one session -/

/-- The root user asks twice for a session that uploads `f`, before the
storage node answers. -/
def sharingEvents : List ServerEvent :=
  openingEvents ++ [.worker (.receive 0 5 0 uploadPackage)] ++
    [.worker (.receive 0 5 0 uploadPackage)]

theorem uploadingWorker_reaches :
    (serverMachine fun _ => 0).Reaches
      (openingEvents ++ [.worker (.receive 0 5 0 uploadPackage)])
      uploadingWorker :=
  Machine.reaches_snoc_iff.mpr
    ⟨openedWorker, openedWorker_reaches, (Option.some_get _).symm⟩

/-- A request ends no session when its group has a node. -/
theorem endsUnshared_of_node {worker : ServerWorker} {group : SharingGroup}
    (listed : worker.app.groups.findGroup 1 = some group)
    (node : worker.app.nodes.findNode group.nodeId ≠ none) :
    EndsUnshared worker (.worker (.receive 0 5 0 uploadPackage)) := by
  rintro transId sessionId ends
  cases ends with
  | failure answers fits taken fails => cases answers
  | refused starts refused =>
      cases refused with
      | put content manages found sameMax noNode =>
          cases content
          obtain rfl := Option.some_inj.mp
            (listed.symm.trans manages.found)
          exact absurd noNode node
      | get content acts member general stored found noNode => cases content

theorem sharingEvents_endsUnshared :
    (serverMachine fun _ => 0).StepsMeet EndsUnshared sharingEvents := by
  refine Machine.StepsMeet.snoc (Machine.StepsMeet.snoc
    (Machine.StepsMeet.of_forall ?_) ?_) ?_
  · rintro event opens worker transId sessionId ends
    simp only [openingEvents, clientRequest, List.mem_cons,
      List.not_mem_nil, or_false] at opens
    rcases opens with rfl | rfl | rfl | rfl
    · cases ends
    · cases ends
    · cases ends
    · cases ends with
      | failure answers fits taken fails => cases answers
      | refused starts refused =>
          cases refused with
          | put content manages found sameMax noNode => cases content
          | get content acts member general stored found noNode =>
              cases content
  · intro worker reaches
    obtain rfl := reaches.unique openedWorker_reaches
    have listed : openedWorker.app.groups.findGroup 1 =
        some (SharingGroup.init 1 ['g'] 1 1 1) := by decide +kernel
    exact endsUnshared_of_node listed (by decide +kernel)
  · intro worker reaches
    obtain rfl := reaches.unique uploadingWorker_reaches
    have listed : uploadingWorker.app.groups.findGroup 1 =
        some (SharingGroup.init 1 ['g'] 1 1 1) := by decide +kernel
    exact endsUnshared_of_node listed (by decide +kernel)

theorem looksUpSession_after_sharing :
    (serverMachine fun _ => 0).Throughout
      (fun worker => ∀ event, LooksUpSession worker event) sharingEvents :=
  looksUpSession_throughout sharingEvents_endsUnshared

/-- The first of the two requests has timed out. -/
def halfTimedOutWorker : ServerWorker :=
  (((serverMachine fun _ => 0).run (serverMachine fun _ => 0).start
    (sharingEvents ++ [.worker (.expire 1000000000 1)])).get
      (by decide +kernel))

/-- The storage node answers the second request. -/
def lateResponse : Package Message where
  command := 1030
  selfPackageId := 1
  triggerPackageId := 6
  content := some (.rspNodePutFileSession { error := none, sessionId := 1 })

def lateTransaction : MultiplyPhaseTransaction TransSelf :=
  (halfTimedOutWorker.waitingTransaction lateResponse).get
    (by decide +kernel)

theorem lateTransaction_self :
    lateTransaction.self = .putFileSession 1 := by
  decide +kernel

theorem not_looksUpSession_always :
    ¬∀ (worker : ServerWorker) (event : ServerEvent),
      (serverMachine fun _ => 0).Reachable worker →
      LooksUpSession worker event := by
  intro always
  have finds := always halfTimedOutWorker
    (.worker (.receive 0 7 2 lateResponse))
    ⟨_, (Option.some_get _).symm⟩ 0 7 2 lateResponse lateTransaction rfl
    (Option.some_get _).symm (by decide +kernel)
  rw [lateTransaction_self] at finds
  have found := finds ⟨_, rfl, rfl⟩
  unfold TransSelf.FindsSession at found
  revert found
  decide +kernel

end ResourceServer
end Spaceless
