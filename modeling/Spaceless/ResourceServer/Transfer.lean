import Spaceless.Foundation.Emission
import Spaceless.Foundation.Registration
import Spaceless.ResourceServer.SessionTable

/-!
# The right to transfer

A fragment request is forwarded for the user of its session.  The role that
the session was opened with is not looked up again: the history of the run
shows it, and a later demotion does not end the transfer.
-/

namespace Spaceless
namespace ResourceServer

open Logic Foundation Protocol Frame FileSessionManager

/-- Whether the message asks a storage node for a fragment. -/
def isFragmentRequest : Message → Bool
  | .reqPutFile _ => true
  | .reqGetFile _ => true
  | _ => false

/-- A send that answers a client. -/
structure IsReply (send : Send Message) : Prop where
  plain : isFragmentRequest send.message = false
  unbound : send.bindTransId = 0

/-- A send of a transaction that is no fragment request. -/
structure IsPlain (transId : Int) (send : Send Message) : Prop where
  plain : isFragmentRequest send.message = false
  bound : send.bindTransId = transId

/-! ## Handlers that do not forward -/

section Plain

variable {Self : Type} (now connId : Int) (package : Package Message)

/-- A registered one-phase handler only answers. -/
theorem onePhase_emits {command : Int}
    {handler : Int → Int → Package Message →
      Handler Server Unit Message Unit}
    (registered : findTransaction command = some (.onePhase handler)) :
    Emits IsReply (handler now connId package) := by
  unfold findTransaction at registered
  split at registered <;> cases registered
  · exact .bind (.check _) fun ⟨_, _⟩ => .bind (.onApp _) fun _ =>
      .bind (.onApp _) fun _ => .sendBackProtocol ⟨rfl, rfl⟩
  · exact .bind (.check _) fun ⟨_, _⟩ => .bind (.onApp _) fun _ =>
      .sendBackProtocol ⟨rfl, rfl⟩
  · exact .bind (.check _) fun ⟨_, _⟩ => .bind (.onApp _) fun _ =>
      .bind (.throwIf _ _) fun _ => .sendBackProtocol ⟨rfl, rfl⟩
  · exact .bind (.check _) fun _ => .bind (.onApp _) fun _ =>
      .bind (.read _) fun _ => .bind (.throwIf _ _) fun _ =>
        .bind (.onApp _) fun _ => .sendBackProtocol ⟨rfl, rfl⟩
  · exact .bind (.check _) fun ⟨_, _⟩ => .bind (.onApp _) fun _ =>
      .bind (.check _) fun _ => .sendBackProtocol ⟨rfl, rfl⟩
  · exact .bind (.check _) fun _ => .bind (.onApp _) fun _ =>
      .bind (.onApp _) fun _ => .sendBackProtocol ⟨rfl, rfl⟩
  · exact .bind (.check _) fun ⟨_, _⟩ => .bind (.onApp _) fun _ =>
      .bind (.check _) fun _ => .sendBackProtocol ⟨rfl, rfl⟩
  · exact .bind (.check _) fun _ => .bind (.onApp _) fun _ =>
      .bind (.onApp _) fun _ => .sendBackProtocol ⟨rfl, rfl⟩
  · exact .bind (.check _) fun ⟨_, _⟩ => .bind (.onApp _) fun _ =>
      .bind (.onApp _) fun _ => .bind (.onApp _) fun _ =>
        .sendBackProtocol ⟨rfl, rfl⟩
  · exact .bind (.check _) fun ⟨_, _⟩ => .bind (.onApp _) fun _ =>
      .bind (.onApp _) fun _ => .bind (.onApp _) fun _ =>
        .sendBackProtocol ⟨rfl, rfl⟩
  · exact .bind (.check _) fun ⟨_, _⟩ => .bind (.onApp _) fun _ =>
      .bind (.onApp _) fun _ => .bind (.throwIf _ _) fun _ =>
        .bind (.onApp _) fun _ => .sendBackProtocol ⟨rfl, rfl⟩
  · exact .bind (.check _) fun ⟨_, _⟩ => .bind (.onApp _) fun _ =>
      .bind (.onApp _) fun _ => .bind (.onApp _) fun _ =>
        .sendBackProtocol ⟨rfl, rfl⟩
  · refine .bind (.check _) fun ⟨_, _⟩ => .bind (.onApp _) fun _ =>
      .bind (.onApp _) fun _ => .bind (.throwIf _ _) fun _ =>
        .bind (.check _) fun _ => .bind (.check _) fun file => ?_
    split
    · exact .bind (.check _) fun _ => .sendBackProtocol ⟨rfl, rfl⟩
    · exact .throw _

variable (trans : MultiplyPhaseTransaction TransSelf)

theorem PutFileSessionTrans.onInit_emits :
    Emits (IsPlain trans.id)
      (PutFileSessionTrans.onInit trans connId package) :=
  .bind (.onApp _) fun _ => .bind (.check _) fun _ =>
    .bind (.onApp _) fun _ => .bind (.onApp _) fun _ =>
      .bind (.setSelf _) fun _ => .bind (.onApp _) fun _ =>
        .bind (.serviceSendProtocol ⟨rfl, rfl⟩) fun _ =>
          .serviceWaitNextPhase _ _

theorem GetFileSessionTrans.onInit_emits :
    Emits (IsPlain trans.id)
      (GetFileSessionTrans.onInit trans connId package) :=
  .bind (.onApp _) fun _ => .bind (.check _) fun ⟨_, _⟩ =>
    .bind (.onApp _) fun _ => .bind (.throwIf _ _) fun _ =>
      .bind (.onApp _) fun _ => .bind (.onApp _) fun _ =>
        .bind (.onApp _) fun _ => .bind (.setSelf _) fun _ =>
          .bind (.onApp _) fun _ => .bind (.serviceSendProtocol ⟨rfl, rfl⟩)
            fun _ => .serviceWaitNextPhase _ _

theorem RemovePathTrans.onInit_emits :
    Emits (IsPlain trans.id) (RemovePathTrans.onInit connId package) :=
  .bind (.onApp _) fun _ => .bind (.check _) fun ⟨_, _⟩ =>
    .bind (.onApp _) fun _ => .onApp _

theorem onActive_emits : Emits IsReply (onActive trans connId package) := by
  unfold onActive
  split
  · refine .bind (.check _) fun response => ?_
    split
    · exact .bind (.onApp _) fun _ => .sendBackProtocol ⟨rfl, rfl⟩
    · exact .bind (.onApp _) fun _ => .sendBackProtocol ⟨rfl, rfl⟩
  · exact .bind (.onApp _) fun _ => .bind (.check _) fun _ =>
      .sendBackProtocol ⟨rfl, rfl⟩
  · refine .bind (.check _) fun response => ?_
    split
    · exact .bind (.onApp _) fun _ => .sendBackProtocol ⟨rfl, rfl⟩
    · exact .bind (.onApp _) fun _ => .sendBackProtocol ⟨rfl, rfl⟩
  · exact .bind (.onApp _) fun _ => .bind (.check _) fun _ =>
      .sendBackProtocol ⟨rfl, rfl⟩
  · exact .pure ()

theorem onError_emits (messageSize : Message → Nat)
    (errorInfo : Foundation.ErrorInfo) :
    Emits IsReply (onError messageSize trans connId errorInfo) := by
  unfold onError
  split
  · exact .bind (.onApp _) fun _ => .sendBackProtocol ⟨rfl, rfl⟩
  · exact .bind (.onApp _) fun _ => .sendBackProtocol ⟨rfl, rfl⟩
  · exact .sendBackProtocol ⟨rfl, rfl⟩

end Plain

/-! ## What is forwarded -/

/-- The sends that a package may make the server carry out when it starts a
transaction: a fragment request only for the user of the session that the
package names. -/
inductive MayPush (server : Server) (connId : Int)
    (package : Package Message) (transId : Int) : Send Message → Prop
  | reply {send} (reply : IsReply send) :
      MayPush server connId package transId send
  | plain {send} (command : package.command ≠ 1031)
      (plain : IsPlain transId send) :
      MayPush server connId package transId send
  | putFile {user session} (request : ReqPutFile) (serviceId : Int)
      (content : package.content = some (.reqPutFile request))
      (login : server.users.findLoginUser connId = some user)
      (found : server.sessions.findPutSession request.sessionId =
        some session)
      (own : session.userId = user.userId) :
      MayPush server connId package transId
        { connId := 0
          message := .reqPutFile
            { request with sessionId := session.nodeSessionId }
          bindTransId := transId, triggerPackageId := 0, triggerCmd := 0
          serviceId := serviceId }
  | getFile {user session group storageFileId} (request : ReqGetFile)
      (serviceId : Int) (command : package.command ≠ 1031)
      (content : package.content = some (.reqGetFile request))
      (login : server.users.findLoginUser connId = some user)
      (found : server.sessions.findGetSession request.sessionId =
        some session)
      (own : session.userId = user.userId)
      (listed : server.groups.findGroup session.groupId = some group)
      (general : generalFileAt group (FilePath.ofText session.filePath)
        server = (.ok storageFileId, server)) :
      MayPush server connId package transId
        { connId := 0
          message := .reqGetFile
            { sessionId := session.nodeSessionId
              fragmentIndex := request.fragmentIndex }
          bindTransId := transId, triggerPackageId := 0, triggerCmd := 0
          serviceId := serviceId }

/-- A send is bound to the transaction that makes it, and a request to put a
fragment makes no other bound sends than fragments. -/
theorem MayPush.bound {server : Server} {connId : Int}
    {package : Package Message} {transId : Int} {send : Send Message}
    (may : MayPush server connId package transId send)
    (bound : send.bindTransId ≠ 0) :
    send.bindTransId = transId ∧ (package.command = 1031 →
      ∃ request, send.message = .reqPutFile request) := by
  cases may with
  | reply reply => exact absurd reply.unbound bound
  | plain command plain =>
      exact ⟨plain.bound, fun same => absurd same command⟩
  | putFile request serviceId content login found own =>
      exact ⟨rfl, fun _ => ⟨_, rfl⟩⟩
  | getFile request serviceId command =>
      exact ⟨rfl, fun same => absurd same command⟩

theorem parse_reqPutFile {package : Package Message} {request : ReqPutFile}
    (parsed : package.parseToProtocol asReqPutFile = .ok request) :
    package.content = some (.reqPutFile request) := by
  obtain ⟨message, content, selected⟩ := content_of_parse parsed
  rw [content]
  unfold asReqPutFile at selected
  split at selected <;> simp_all

theorem parse_reqGetFile {package : Package Message} {request : ReqGetFile}
    (parsed : package.parseToProtocol asReqGetFile = .ok request) :
    package.content = some (.reqGetFile request) := by
  obtain ⟨message, content, selected⟩ := content_of_parse parsed
  rw [content]
  unfold asReqGetFile at selected
  split at selected <;> simp_all

theorem findPutSession_of_getPutSession {sessions : FileSessionManager}
    {sessionId : Int} {session : PutFileSession}
    (got : sessions.getPutSession sessionId = .ok session) :
    sessions.findPutSession sessionId = some session := by
  unfold getPutSession at got
  split at got <;> simp_all

theorem findGetSession_of_getGetSession {sessions : FileSessionManager}
    {sessionId : Int} {session : GetFileSession}
    (got : sessions.getGetSession sessionId = .ok session) :
    sessions.findGetSession sessionId = some session := by
  unfold getGetSession at got
  split at got <;> simp_all

/-- The request puts the next fragment of a session of the user who is logged
in on the connection. -/
structure Advances (server : Server) (connId : Int)
    (package : Package Message) (request : ReqPutFile) (user : User)
    (session : PutFileSession) : Prop where
  content : package.content = some (.reqPutFile request)
  login : server.users.findLoginUser connId = some user
  found : server.sessions.findPutSession request.sessionId = some session
  own : session.userId = user.userId
  next : request.fragmentIndex = session.nextFragment

/-- The server after `++session.next_fragment`. -/
def advance (server : Server) (request : ReqPutFile)
    (session : PutFileSession) : Server :=
  { server with
    sessions := server.sessions.setSession request.sessionId
      (.put { session with nextFragment := session.nextFragment + 1 }) }

/-- How `PutFileTrans::on_init` ends: a check refuses the request, the group
or the node is missing once the session has advanced, or the fragment is
forwarded. -/
inductive PutFileRun (server : Server) (connId : Int)
    (package : Package Message) (transId : Int) (self : TransSelf) :
    Except Fault Unit → Frame Server TransSelf Message → Prop
  | refused (fault : Fault) :
      PutFileRun server connId package transId self (.error fault)
        (Worker.startFrame server self)
  | lost {fault request user session}
      (advances : Advances server connId package request user session)
      (missing : ∀ group, server.groups.findGroup session.groupId =
        some group → server.nodes.findNode group.nodeId = none) :
      PutFileRun server connId package transId self (.error fault)
        (Worker.startFrame (advance server request session)
          (.putFile session.sessionId))
  | forwarded {request user session group node}
      (advances : Advances server connId package request user session)
      (listed : server.groups.findGroup session.groupId = some group)
      (known : server.nodes.findNode group.nodeId = some node) :
      PutFileRun server connId package transId self (.ok ())
        { app := advance server request session
          self := .putFile session.sessionId
          sends :=
            [{ connId := 0
               message := .reqPutFile
                 { request with sessionId := session.nodeSessionId }
               bindTransId := transId, triggerPackageId := 0
               triggerCmd := 0, serviceId := node.serviceId }]
          waits :=
            [{ connId := 0, cmd := rspPutFile, timeout := defaultTimeout
               serviceId := node.serviceId }] }

theorem PutFileTrans.onInit_run
    (trans : MultiplyPhaseTransaction TransSelf) (connId : Int)
    (package : Package Message) (server : Server) (self : TransSelf) :
    Action.Ensures (PutFileTrans.onInit trans connId package)
      (Worker.startFrame server self)
      (fun _ frame => PutFileRun server connId package trans.id self (.ok ())
        frame)
      (fun fault frame => PutFileRun server connId package trans.id self
        (.error fault) frame) := by
  simp only [PutFileTrans.onInit, Action.ensures_bind, ensures_onApp,
    Server.getLoginUser, Server.getGroup, Server.getNode, parse,
    Action.ensures_check, Action.ensures_throwIf, Server.onSessions,
    Action.ensures_zoom, Action.ensures_modify, ensures_setSelf,
    ensures_serviceSendProtocol, ensures_serviceWaitNextPhase,
    Worker.startFrame]
  refine ⟨fun user login => ⟨fun request parsed => ⟨fun session got =>
    ⟨fun _ => .refused _, fun own => ⟨fun _ => .refused _, fun next => ?_⟩⟩,
    fun fault _ => .refused fault⟩, fun fault _ => .refused fault⟩,
    fun fault _ => .refused fault⟩
  have advances : Advances server connId package request user session :=
    ⟨parse_reqPutFile parsed, findLoginUser_of_getLoginUser login,
      findPutSession_of_getPutSession got, not_not.mp own, not_not.mp next⟩
  refine ⟨fun group listed => ⟨fun node known => ?_, fun fault failed => ?_⟩,
    fun fault failed => ?_⟩
  · refine .forwarded advances (findGroup_of_getGroup listed) ?_
    unfold StorageNodeManager.getNode at known
    split at known <;> simp_all
  · refine .lost advances fun other sameListed => ?_
    rw [findGroup_of_getGroup listed] at sameListed
    cases sameListed
    unfold StorageNodeManager.getNode at failed
    split at failed <;> simp_all
  · refine .lost advances fun other sameListed => ?_
    have listed := getGroup_of_findGroup sameListed
    rw [listed] at failed
    cases failed

theorem PutFileTrans.onInit_mayPush
    (trans : MultiplyPhaseTransaction TransSelf) (connId : Int)
    (package : Package Message) (server : Server) (self : TransSelf) :
    SendsOnly (MayPush server connId package trans.id)
      ((PutFileTrans.onInit trans connId package).after
        (Worker.startFrame server self)) := by
  refine Action.ensures_after.mp ((PutFileTrans.onInit_run trans connId
    package server self).mono ?_ ?_)
  · intro _ frame run
    cases run with
    | @forwarded request _ _ _ node advances listed known =>
        intro send present
        rw [List.mem_singleton.mp present]
        exact .putFile request node.serviceId advances.content
          advances.login advances.found advances.own
  · intro fault frame run
    cases run with
    | refused => simp [SendsOnly, Worker.startFrame]
    | lost advances missing => simp [SendsOnly, Worker.startFrame]

theorem GetFileTrans.onInit_mayPush
    (trans : MultiplyPhaseTransaction TransSelf) (connId : Int)
    (package : Package Message) (command : package.command ≠ 1031)
    (server : Server) (self : TransSelf) :
    SendsOnly (MayPush server connId package trans.id)
      ((GetFileTrans.onInit trans connId package).after
        (Worker.startFrame server self)) := by
  suffices ensures : Action.Ensures (GetFileTrans.onInit trans connId package)
      (Worker.startFrame server self)
      (fun _ => SendsOnly (MayPush server connId package trans.id))
      (fun _ => SendsOnly (MayPush server connId package trans.id)) from
    Action.ensures_after.mp ensures
  have none_ (app : Server) (self : TransSelf) :
      SendsOnly (MayPush server connId package trans.id)
        { app := app, self := self, sends := [], waits := [] } := by
    simp [SendsOnly]
  simp only [GetFileTrans.onInit, Action.ensures_bind, ensures_onApp,
    Server.getLoginUser, Server.getGroup, Server.getNode, parse,
    Action.ensures_check, Action.ensures_throwIf, ensures_setSelf,
    ensures_serviceSendProtocol, ensures_serviceWaitNextPhase,
    Worker.startFrame]
  refine ⟨fun user login => ⟨fun request parsed => ⟨fun session got =>
    ⟨fun _ => none_ _ _, fun own => ⟨fun group listed => ?_,
      fun _ _ => none_ _ _⟩⟩, fun _ _ => none_ _ _⟩,
    fun _ _ => none_ _ _⟩, fun _ _ => none_ _ _⟩
  have unchanged := after_generalFileAt group
    (FilePath.ofText session.filePath) server
  refine (Action.ensures_self _ _).mono ?_ fun _ _ _ => none_ _ _
  intro storageFileId later general
  rw [general] at unchanged
  change later = server at unchanged
  subst unchanged
  refine (Action.ensures_self _ _).mono ?_ fun _ _ _ => none_ _ _
  intro nodeId app _
  refine ⟨fun node _ => ?_, fun _ _ => none_ _ _⟩
  intro send present
  rw [List.mem_singleton.mp present]
  exact .getFile request node.serviceId command (parse_reqGetFile parsed)
    (findLoginUser_of_getLoginUser login)
    (findGetSession_of_getGetSession got) (not_not.mp own)
    (findGroup_of_getGroup listed) general

/-- A handler on a fresh frame. -/
theorem sendsOnly_of_emits {Self : Type} {allowed : Send Message → Prop}
    {handler : Handler Server Self Message Unit}
    (emits : Emits allowed handler) (server : Server) (self : Self) :
    SendsOnly allowed (handler.after (Worker.startFrame server self)) :=
  emits _ (by simp [SendsOnly, Worker.startFrame])

theorem onInit_mayPush {trans : MultiplyPhaseTransaction TransSelf}
    (connId : Int) (package : Package Message) (server : Server)
    {self : TransSelf}
    (registered : findTransaction package.command =
      some (.multiplyPhase self))
    (own : trans.self = self) :
    SendsOnly (MayPush server connId package trans.id)
      ((onInit trans connId package).after
        (Worker.startFrame server self)) := by
  have command := command_of_findTransaction registered
  have plain {handler : Handler Server TransSelf Message Unit}
      (other : package.command ≠ 1031)
      (emits : Emits (IsPlain trans.id) handler) :
      SendsOnly (MayPush server connId package trans.id)
        (handler.after (Worker.startFrame server self)) :=
    fun send present => .plain other
      (sendsOnly_of_emits emits server self send present)
  subst own
  unfold onInit
  split <;> rename_i taken <;> rw [taken] at command
  · exact plain (by simp [command, TransSelf.command])
      (PutFileSessionTrans.onInit_emits connId package trans)
  · exact PutFileTrans.onInit_mayPush trans connId package server _
  · exact plain (by simp [command, TransSelf.command])
      (GetFileSessionTrans.onInit_emits connId package trans)
  · exact GetFileTrans.onInit_mayPush trans connId package
      (by simp [command, TransSelf.command]) server _
  · exact plain (by simp [command, TransSelf.command])
      (RemovePathTrans.onInit_emits connId package trans)

variable {messageSize : Message → Nat}

/-- What a received package makes the server push. -/
theorem receive_mayPush {now connId serviceId : Int}
    {package : Package Message} {worker later : ServerWorker}
    (received : Worker.receive (program messageSize) now connId serviceId
      package worker = some later) :
    Worker.Pushes
      (fun send => IsReply send ∨
        Worker.Starts (program messageSize) package worker ∧
          MayPush worker.app connId package worker.nextTransId send)
      worker later := by
  refine Worker.receive_pushes ?_ ?_ ?_ ?_ ?_ received
  · intro starts handler registered send present
    exact Or.inl (sendsOnly_of_emits
      (onePhase_emits now connId package registered) worker.app () send
      present)
  · intro starts factory registered send present
    exact Or.inr ⟨⟨starts, factory, registered⟩,
      onInit_mayPush connId package worker.app registered rfl send present⟩
  · intro waiting answers fits send present
    exact Or.inl (sendsOnly_of_emits
      (onActive_emits connId package waiting.clearWaitingState) worker.app
      waiting.self send present)
  · intro failed errorInfo app send present
    exact Or.inl (sendsOnly_of_emits
      (onError_emits connId failed messageSize errorInfo) app failed.self
      send present)
  · intro errorInfo
    exact Or.inl ⟨rfl, rfl⟩

/-- What a step makes the server push. -/
theorem step_mayPush {worker later : ServerWorker}
    {event : Worker.Event Message ServerCall}
    (stepped : Worker.step (program messageSize) worker event =
      some later) :
    Worker.Pushes
      (fun send => IsReply send ∨ ∃ now connId serviceId package,
        event = .receive now connId serviceId package ∧
          Worker.Starts (program messageSize) package worker ∧
          MayPush worker.app connId package worker.nextTransId send)
      worker later := by
  cases event with
  | receive now connId serviceId package =>
      refine (receive_mayPush stepped).mono fun send permitted => ?_
      exact permitted.imp_right fun ⟨starts, may⟩ =>
        ⟨now, connId, serviceId, package, rfl, starts, may⟩
  | internal call =>
      have called : Worker.callInternal (program messageSize) call worker =
          some later := stepped
      rw [Worker.eq_of_callInternal called]
      exact (Worker.Pushes.refl worker).congr ⟨rfl, rfl, rfl⟩
        ⟨rfl, rfl, rfl⟩
  | expire now timerId =>
      have expired : Worker.processExpiryTimer (program messageSize) now
          timerId worker = some later := stepped
      refine Worker.expire_pushes ?_ expired
      intro failed connId errorInfo app send present
      exact Or.inl (sendsOnly_of_emits
        (onError_emits connId failed messageSize errorInfo) app failed.self
        send present)

/-! ## Where sessions come from -/

/-- A step of the run registered the session. -/
def OpenedIn (messageSize : Message → Nat) (events : List ServerEvent)
    (session : Session) : Prop :=
  ∃ first event second state,
    events = first ++ .worker event :: second ∧
    (serverMachine messageSize).Reaches first state ∧
    Opens state.app (eventSource state event) session.registered

theorem OpenedIn.snoc {events : List ServerEvent} {session : Session}
    (opened : OpenedIn messageSize events session) (event : ServerEvent) :
    OpenedIn messageSize (events ++ [event]) session := by
  obtain ⟨first, opening, second, state, rfl, reaches, opens⟩ := opened
  exact ⟨first, opening, second ++ [event], state, by simp, reaches, opens⟩

theorem Opens.registered {before : Server} {source : Source}
    {session : Session} (opens : Opens before source session) :
    session.registered = session := by
  cases opens <;> rfl

/-- Every session of a reached state was registered in the run. -/
theorem openedIn_of_reaches {events : List ServerEvent}
    {worker : ServerWorker}
    (reaches : (serverMachine messageSize).Reaches events worker)
    {sessionId : Int} {session : Session}
    (found : worker.app.sessions.sessionList[sessionId]? = some session) :
    OpenedIn messageSize events session := by
  revert sessionId session
  refine Machine.Reaches.induction
    (motive := fun events worker => ∀ {sessionId : Int} {session : Session},
      worker.app.sessions.sessionList[sessionId]? = some session →
      OpenedIn messageSize events session) ?_ ?_ reaches
  · intro sessionId session found
    simp [serverMachine, Worker.init, Server.init, FileSessionManager.init]
      at found
  · intro events worker event next reached opened stepped sessionId session
      found
    cases event with
    | restart rest =>
        cases stepped
        change (worker.app.restart rest).sessions.sessionList[sessionId]? =
          some session at found
        rw [restart_sessions] at found
        simp [FileSessionManager.init] at found
    | worker event =>
        obtain ⟨owner, forest⟩ :=
          (Sound.of_reachable ⟨events, reached⟩).running
        have from_ := SessionsFrom.of_changed forest.owned
          (keyed_of_reachable ⟨events, reached⟩) (step_changed stepped)
        rcases from_.origin sessionId session found with
          ⟨old, older, continues⟩ | ⟨-, opens⟩
        · obtain ⟨first, opening, second, state, split, reaches, opens⟩ :=
            (opened older).snoc (.worker event)
          exact ⟨first, opening, second, state, split, reaches,
            continues.registered ▸ opens⟩
        · exact ⟨events, event, [], worker, rfl, reached,
            opens.registered.symm ▸ opens⟩

/-- A request for a put session on the path, at an earlier point of the run,
by a connection that was then logged in as the user and a manager of the
group. -/
def OpenedByManager (messageSize : Message → Nat)
    (events : List ServerEvent) (session : PutFileSession) : Prop :=
  ∃ first now connId serviceId package second state request user group,
    events = first ++
      .worker (.receive now connId serviceId package) :: second ∧
    (serverMachine messageSize).Reaches first state ∧
    package.content = some (.reqPutFileSession request) ∧
    request.groupId = session.groupId ∧
    request.filePath = session.filePath ∧
    Manages state.app connId session.groupId user group ∧
    user.userId = session.userId

/-- A request for a get session on the path, at an earlier point of the run,
by a connection that was then logged in as the user and a member of the
group. -/
def OpenedByMember (messageSize : Message → Nat)
    (events : List ServerEvent) (session : GetFileSession) : Prop :=
  ∃ first now connId serviceId package second state user group,
    events = first ++
      .worker (.receive now connId serviceId package) :: second ∧
    (serverMachine messageSize).Reaches first state ∧
    package.content =
      some (.reqGetFileSession session.groupId session.filePath) ∧
    Acts state.app connId session.groupId user group ∧
    group.isMember user.userId = true ∧
    user.userId = session.userId

theorem receive_of_eventSource {worker : ServerWorker}
    {event : Worker.Event Message ServerCall} {connId : Int}
    {package : Package Message}
    (asks : eventSource worker event = .request connId package) :
    ∃ now otherId serviceId asked,
      event = .receive now otherId serviceId asked ∧
        otherId = connId ∧ asked = package := by
  cases event with
  | receive now otherId serviceId asked =>
      obtain ⟨-, same, samePackage⟩ := packageSource_eq_request asks
      exact ⟨now, otherId, serviceId, asked, rfl, same, samePackage⟩
  | internal call => cases asks
  | expire now timerId => cases asks

theorem openedByManager_of_reaches {events : List ServerEvent}
    {worker : ServerWorker}
    (reaches : (serverMachine messageSize).Reaches events worker)
    {sessionId : Int} {session : PutFileSession}
    (found : worker.app.sessions.findPutSession sessionId = some session) :
    OpenedByManager messageSize events session := by
  obtain ⟨first, event, second, state, split, reached, opens⟩ :=
    openedIn_of_reaches reaches (findPutSession_eq_some.mp found)
  generalize asks : eventSource state event = source at opens
  generalize same : (Session.put session).registered = entry at opens
  cases opens with
  | get filePath command content acts member general => cases same
  | put request command content manages uploads =>
      obtain ⟨now, connId, serviceId, package, rfl, rfl, rfl⟩ :=
        receive_of_eventSource asks
      simp only [Session.registered, PutFileSession.init, Session.put.injEq,
        PutFileSession.mk.injEq] at same
      obtain ⟨-, user, group, path, -⟩ := same
      exact ⟨first, now, connId, serviceId, package, second, state, request,
        _, _, split, reached, content, group.symm, path.symm,
        group ▸ manages, user.symm⟩

theorem openedByMember_of_reaches {events : List ServerEvent}
    {worker : ServerWorker}
    (reaches : (serverMachine messageSize).Reaches events worker)
    {sessionId : Int} {session : GetFileSession}
    (found : worker.app.sessions.findGetSession sessionId = some session) :
    OpenedByMember messageSize events session := by
  obtain ⟨first, event, second, state, split, reached, opens⟩ :=
    openedIn_of_reaches reaches (findGetSession_eq_some.mp found)
  generalize asks : eventSource state event = source at opens
  generalize same : (Session.get session).registered = entry at opens
  cases opens with
  | put request command content manages uploads => cases same
  | get filePath command content acts member general =>
      obtain ⟨now, connId, serviceId, package, rfl, rfl, rfl⟩ :=
        receive_of_eventSource asks
      simp only [Session.registered, GetFileSession.init, Session.get.injEq,
        GetFileSession.mk.injEq] at same
      obtain ⟨-, user, rfl, rfl, -⟩ := same
      exact ⟨first, now, connId, serviceId, package, second, state,
        _, _, split, reached, content, acts, member, user.symm⟩

/-! ## Who is forwarded -/

/-- A step forwards a PutFile request only for the logged-in user of the
session that it names, and a GetFile request only for such a user and a path
that is a general file of the group.  That the user managed the group, or was
a member of it, is known of the session request only. -/
theorem forwarded_only_for_opener {events : List ServerEvent}
    {worker later : ServerWorker} {event : Worker.Event Message ServerCall}
    (reaches : (serverMachine messageSize).Reaches events worker)
    (stepped : Worker.step (program messageSize) worker event = some later)
    {pushed : List (OutMessage Message)}
    (queue : later.outQueue = worker.outQueue ++ pushed) :
    ∀ out ∈ pushed,
      (∀ forwarded, out.package.content = some (.reqPutFile forwarded) →
        ∃ now connId serviceId package request user session,
          event = .receive now connId serviceId package ∧
          package.content = some (.reqPutFile request) ∧
          worker.app.users.findLoginUser connId = some user ∧
          worker.app.sessions.findPutSession request.sessionId =
            some session ∧
          session.userId = user.userId ∧
          OpenedByManager messageSize events session) ∧
      ∀ forwarded, out.package.content = some (.reqGetFile forwarded) →
        ∃ now connId serviceId package request user session group
          storageFileId,
          event = .receive now connId serviceId package ∧
          package.content = some (.reqGetFile request) ∧
          worker.app.users.findLoginUser connId = some user ∧
          worker.app.sessions.findGetSession request.sessionId =
            some session ∧
          session.userId = user.userId ∧
          worker.app.groups.findGroup session.groupId = some group ∧
          generalFileAt group (FilePath.ofText session.filePath)
            worker.app = (.ok storageFileId, worker.app) ∧
          OpenedByMember messageSize events session := by
  obtain ⟨more, sameQueue, all⟩ := (step_mayPush stepped).queue
  obtain rfl := List.append_cancel_left (queue.symm.trans sameQueue)
  intro out present
  obtain ⟨send, permitted, carries⟩ := all out present
  have content := carries.content
  constructor
  · intro forwarded asked
    rw [asked] at content
    have message := (Option.some.inj content).symm
    rcases permitted with
      reply | ⟨now, connId, serviceId, package, rfl, -, may⟩
    · exact absurd reply.plain (by simp [message, isFragmentRequest])
    · cases may with
      | reply reply =>
          exact absurd reply.plain (by simp [message, isFragmentRequest])
      | plain command plain =>
          exact absurd plain.plain (by simp [message, isFragmentRequest])
      | getFile => cases message
      | putFile request _ asks login found own =>
          exact ⟨now, connId, serviceId, package, request, _, _, rfl,
            asks, login, found, own,
            openedByManager_of_reaches reaches found⟩
  · intro forwarded asked
    rw [asked] at content
    have message := (Option.some.inj content).symm
    rcases permitted with
      reply | ⟨now, connId, serviceId, package, rfl, -, may⟩
    · exact absurd reply.plain (by simp [message, isFragmentRequest])
    · cases may with
      | reply reply =>
          exact absurd reply.plain (by simp [message, isFragmentRequest])
      | plain command plain =>
          exact absurd plain.plain (by simp [message, isFragmentRequest])
      | putFile => cases message
      | getFile request _ _ asks login found own listed general =>
          exact ⟨now, connId, serviceId, package, request, _, _, _, _, rfl,
            asks, login, found, own, listed, general,
            openedByMember_of_reaches reaches found⟩

/-! ## A transfer after a demotion -/

/-- User 2 becomes a manager, opens a session for `f`, and is made a member
again. -/
def demotionEvents : List ServerEvent :=
  openingEvents ++
    [clientRequest 7 (.reqRegisterUser ['u'] ['q']),
      clientRequest 7 (.reqLoginUser 2 ['q']),
      clientRequest 7 (.reqJoinGroup 1),
      clientRequest 5 (.reqAssignAsManager 1 2),
      clientRequest 7 (.reqPutFileSession
        { groupId := 1, filePath := ['f'], maxFragment := 2 }),
      clientRequest 5 (.reqAssignAsMember 1 2)]

def demotedWorker : ServerWorker :=
  (((serverMachine fun _ => 0).run (serverMachine fun _ => 0).start
    demotionEvents).get (by decide +kernel))

theorem demotedWorker_reaches :
    (serverMachine fun _ => 0).Reaches demotionEvents demotedWorker :=
  (Option.some_get _).symm

def fragmentPackage : Package Message where
  command := 1031
  selfPackageId := 1
  triggerPackageId := 0
  content := some (.reqPutFile
    { sessionId := 1, fragmentIndex := 0, fragmentContent := [] })

def forwardingWorker : ServerWorker :=
  (Worker.receive (program fun _ => 0) 0 7 0 fragmentPackage
    demotedWorker).get (by decide +kernel)

theorem forwardingWorker_received :
    Worker.receive (program fun _ => 0) 0 7 0 fragmentPackage
      demotedWorker = some forwardingWorker :=
  (Option.some_get _).symm

/-- What the server pushed on the fragment request. -/
def pushedByFragment : List (OutMessage Message) :=
  forwardingWorker.outQueue.drop demotedWorker.outQueue.length

theorem pushedByFragment_queue :
    forwardingWorker.outQueue =
      demotedWorker.outQueue ++ pushedByFragment := by
  decide +kernel

theorem openedByManager_of_pushedByFragment :
    ∃ session, OpenedByManager (fun _ => 0) demotionEvents session := by
  have stepped : Worker.step (program fun _ => 0) demotedWorker
      (.receive 0 7 0 fragmentPackage) = some forwardingWorker :=
    forwardingWorker_received
  obtain ⟨_, _, _, _, _, _, session, -, -, -, -, -, opened⟩ :=
    (forwarded_only_for_opener demotedWorker_reaches stepped
      pushedByFragment_queue (pushedByFragment.head (by decide +kernel))
      (List.head_mem _)).1
        { sessionId := 0, fragmentIndex := 0, fragmentContent := [] }
        (by decide +kernel)
  exact ⟨session, opened⟩

/-- A demoted user still has fragments forwarded. -/
theorem not_forwarded_only_for_managers :
    ¬∀ (worker later : ServerWorker) (now connId serviceId : Int)
        (package : Package Message) (request forwarded : ReqPutFile)
        (user : User) (session : PutFileSession) (group : SharingGroup)
        (pushed : List (OutMessage Message)) (out : OutMessage Message),
      (serverMachine fun _ => 0).Reachable worker →
      Worker.receive (program fun _ => 0) now connId serviceId package
        worker = some later →
      package.content = some (.reqPutFile request) →
      worker.app.users.findLoginUser connId = some user →
      worker.app.sessions.findPutSession request.sessionId = some session →
      worker.app.groups.findGroup session.groupId = some group →
      later.outQueue = worker.outQueue ++ pushed →
      out ∈ pushed →
      out.package.content = some (.reqPutFile forwarded) →
      group.isManager user.userId = true := by
  intro always
  have manager := always demotedWorker forwardingWorker 0 7 0
    fragmentPackage
    { sessionId := 1, fragmentIndex := 0, fragmentContent := [] }
    { sessionId := 0, fragmentIndex := 0, fragmentContent := [] }
    ((demotedWorker.app.users.findLoginUser 7).get (by decide +kernel))
    ((demotedWorker.app.sessions.findPutSession 1).get (by decide +kernel))
    ((demotedWorker.app.groups.findGroup 1).get (by decide +kernel))
    pushedByFragment (pushedByFragment.head (by decide +kernel))
    ⟨demotionEvents, demotedWorker_reaches⟩ forwardingWorker_received rfl
    (Option.some_get _).symm (Option.some_get _).symm
    (by decide +kernel) pushedByFragment_queue (List.head_mem _)
    (by decide +kernel)
  exact absurd manager (by decide +kernel)

end ResourceServer
end Spaceless
