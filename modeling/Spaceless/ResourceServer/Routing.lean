import Spaceless.ResourceServer.Requests
import Spaceless.ResourceServer.SessionHistory

/-!
# The service that a put session is sent to

A group stays on its storage node, and a node keeps its service once it has
one.  So the node that is asked for the session of a put session is the node
that its fragments are sent to, as long as no node is given another service.
-/

namespace Spaceless
namespace ResourceServer

open Logic Foundation Protocol Frame FileSessionManager

/-! ## Services of nodes -/

namespace StorageNodeManager

/-- Every node with a service stays and keeps it. -/
def KeepsServices (before after : StorageNodeManager) : Prop :=
  ∀ nodeId node, before.findNode nodeId = some node → node.serviceId ≠ 0 →
    ∃ later, after.findNode nodeId = some later ∧
      later.serviceId = node.serviceId

variable {nodes : StorageNodeManager}

theorem KeepsServices.refl (nodes : StorageNodeManager) :
    KeepsServices nodes nodes :=
  fun _ node found _ => ⟨node, found, rfl⟩

theorem keepsServices_registerNode (ip : Text) (port serviceId : Int) :
    KeepsServices nodes (nodes.registerNode ip port serviceId) :=
  fun _ node found _ =>
    ⟨node, Table.lookup_insertAll_of_bound nodes.nodeList [(nodes.nextId, _)]
      found, rfl⟩

/-- Replacing a node by one of the same service. -/
theorem keepsServices_insert {nodeId : Int} {node changed : StorageNode}
    (found : nodes.findNode nodeId = some node)
    (same : node.serviceId ≠ 0 → changed.serviceId = node.serviceId) :
    KeepsServices nodes
      { nodes with nodeList := nodes.nodeList.insert nodeId changed } := by
  intro otherId other foundOther served
  simp only [findNode, Table.lookup_insert]
  split
  · rename_i own
    subst own
    cases found.symm.trans foundOther
    exact ⟨changed, rfl, same served⟩
  · exact ⟨other, foundOther, rfl⟩

/-- A node without a service may be given one. -/
theorem keepsServices_setService {nodeId : Int} (serviceId : Int)
    (unserved : ∀ node, nodes.findNode nodeId = some node →
      node.serviceId = 0) :
    KeepsServices nodes
      ((StorageNodeManager.setService nodeId serviceId).after nodes) := by
  unfold Action.after StorageNodeManager.setService
  cases got : nodes.getNode nodeId with
  | error fault => exact .refl nodes
  | ok node =>
      have found := findNode_of_getNode got
      exact keepsServices_insert found fun served =>
        absurd (unserved node found) served

end StorageNodeManager

open StorageNodeManager

section Services

variable {before after : Server} {source : Source}

theorem registerGroup_keepsServices (server : Server) (userId : Int)
    (groupName : Text) :
    KeepsServices server.nodes
      ((Server.registerGroup userId groupName).after server).nodes := by
  suffices ensures : Action.Ensures (Server.registerGroup userId groupName)
      server (fun _ later => KeepsServices server.nodes later.nodes)
      (fun _ later => KeepsServices server.nodes later.nodes) from
    Action.ensures_after.mp ensures
  have same := KeepsServices.refl server.nodes
  simp only [Server.registerGroup, Server.onFiles, Server.onGroups,
    Server.onNodes, Action.ensures_bind, Action.ensures_read,
    Action.ensures_throwIf, Action.ensures_zoom, Action.ensures_check,
    Action.ensures_modify, Action.ensures_pure]
  refine ⟨fun _ => same, fun _ => ?_⟩
  refine Action.ensures_of_forall ?_ fun _ _ => same
  intro rootDirId files
  refine ⟨?_, fun _ _ => same⟩
  rintro ⟨nodeKey, fitNode⟩ fit
  have counted : KeepsServices server.nodes
      { server.nodes with
        nodeList := server.nodes.nodeList.insert nodeKey
          { fitNode with useCounting := fitNode.useCounting + 1 } } :=
    keepsServices_insert (findNode_of_getFitNode fit) fun _ => rfl
  exact ⟨fun _ => counted, fun _ => counted⟩

/-- Requests and answers do not give a node another service. -/
theorem keepsServices_of_change {owner : Int → Int}
    (owned : before.files.Owned owner) (keyed : before.sessions.Keyed)
    (change : Change before source after) (asked : source ≠ .server) :
    KeepsServices before.nodes after.nodes := by
  have same := KeepsServices.refl before.nodes
  cases change with
  | same => exact same
  | users changed => exact same
  | nodes changed => exact absurd rfl asked
  | serialize => exact absurd rfl asked
  | registerGroup userId groupName =>
      exact registerGroup_keepsServices before userId groupName
  | roles acts target place permitted => exact same
  | createPath path content manages => exact same
  | removePath path force content manages => exact same
  | @putSession connId package user group request command content
      manages =>
      suffices ensures : Action.Ensures (putSession user group request)
          before
          (fun _ later => KeepsServices before.nodes later.nodes)
          (fun _ later => KeepsServices before.nodes later.nodes) from
        Action.ensures_after.mp ensures
      refine (putSession_run user group request owned keyed).mono ?_ ?_
      · intro session later run
        cases run <;> exact same
      · intro fault later run
        cases run <;> exact same
  | getSession filePath command content acts member general =>
      obtain ⟨sessions, changed⟩ := after_getSession before _ _ filePath
      rw [changed]
      exact same
  | putFragment request command content login found own next => exact same
  | removeSession sessionId => exact same
  | putNodeSession sessionId nodeSessionId found => exact same
  | getNodeSession sessionId nodeSessionId found => exact same

theorem keepsServices_of_changed {owner : Int → Int}
    (owned : before.files.Owned owner) (keyed : before.sessions.Keyed)
    (changed : Changed before source after) (asked : source ≠ .server) :
    KeepsServices before.nodes after.nodes := by
  induction changed with
  | change change => exact keepsServices_of_change owned keyed change asked
  | cleanUp changed sessionId keeps => exact keeps

/-- The event gives no node that has a service another one. -/
def KeepsEachService (server : Server) :
    Worker.Event Message ServerCall → Prop
  | .internal (.setService nodeId _) => ∀ node,
      server.nodes.findNode nodeId = some node → node.serviceId = 0
  | _ => True

variable {messageSize : Message → Nat} {worker later : ServerWorker}
  {event : Worker.Event Message ServerCall}

theorem keepsServices_of_step
    (reachable : (serverMachine messageSize).Reachable worker)
    (stepped : Worker.step (program messageSize) worker event = some later)
    (keeps : KeepsEachService worker.app event) :
    KeepsServices worker.app.nodes later.app.nodes := by
  obtain ⟨owner, forest⟩ := (Sound.of_reachable reachable).running
  have keyed := keyed_of_reachable reachable
  have same := KeepsServices.refl worker.app.nodes
  rcases step_asked stepped with ⟨call, rfl⟩ | ⟨source, asked, changed⟩
  · rw [← after_of_internal stepped]
    cases call with
    | registerRootUser userName password =>
        simp only [internal, Action.after_bind_pure]
        exact same
    | registerRootGroup userId groupName =>
        simp only [internal, Action.after_bind_pure]
        exact registerGroup_keepsServices worker.app userId groupName
    | registerNode ip port serviceId =>
        exact keepsServices_registerNode ip port serviceId
    | setService nodeId serviceId =>
        exact keepsServices_setService serviceId keeps
    | kickOutUser connId => exact same
    | serialize => exact same
  · exact keepsServices_of_changed forest.owned keyed changed asked

end Services

/-! ## The service of a group -/

/-- The service is that of the storage node of the group. -/
def OnService (server : Server) (groupId serviceId : Int) : Prop :=
  ∃ group node, server.groups.findGroup groupId = some group ∧
    server.nodes.findNode group.nodeId = some node ∧
    node.serviceId = serviceId

theorem OnService.unique {server : Server} {groupId serviceId other : Int}
    (on : OnService server groupId serviceId)
    (also : OnService server groupId other) : serviceId = other := by
  obtain ⟨group, node, listed, known, rfl⟩ := on
  obtain ⟨group', node', listed', known', rfl⟩ := also
  cases listed.symm.trans listed'
  cases known.symm.trans known'
  rfl

theorem OnService.step {messageSize : Message → Nat}
    {worker later : ServerWorker} {event : Worker.Event Message ServerCall}
    {groupId serviceId : Int} (on : OnService worker.app groupId serviceId)
    (served : serviceId ≠ 0)
    (reachable : (serverMachine messageSize).Reachable worker)
    (stepped : Worker.step (program messageSize) worker event = some later)
    (keeps : KeepsEachService worker.app event) :
    OnService later.app groupId serviceId := by
  obtain ⟨group, node, listed, known, rfl⟩ := on
  obtain ⟨changed, still, place⟩ :=
    place_of_changed (Sound.of_reachable reachable)
      (shape_of_reachable reachable) (step_changed stepped) listed
  obtain ⟨moved, found, same⟩ := keepsServices_of_step reachable stepped keeps
    group.nodeId node known served
  exact ⟨changed, moved, still, by rw [place.nodeId]; exact found, same⟩

/-! ## The node's session of a put session -/

namespace FileSessionManager

/-- The node's session of a put session is unset, or that of before, or one
that was given. -/
def NodeSessionsFrom (gives : Int → Int → Prop)
    (before after : FileSessionManager) : Prop :=
  ∀ sessionId session, after.findPutSession sessionId = some session →
    session.nodeSessionId = 0 ∨
    (∃ old, before.findPutSession sessionId = some old ∧
      old.nodeSessionId = session.nodeSessionId) ∨
    gives sessionId session.nodeSessionId

variable {gives : Int → Int → Prop} {before after : FileSessionManager}

namespace NodeSessionsFrom

theorem refl (sessions : FileSessionManager) :
    NodeSessionsFrom gives sessions sessions :=
  fun _ session found => Or.inr (Or.inl ⟨session, found, rfl⟩)

theorem of_list (from_ : NodeSessionsFrom gives before after)
    {later : FileSessionManager}
    (same : later.sessionList = after.sessionList) :
    NodeSessionsFrom gives before later := by
  intro sessionId session found
  apply from_ sessionId session
  rw [findPutSession_eq_some] at found ⊢
  rw [← same]
  exact found

theorem removeSession (from_ : NodeSessionsFrom gives before after)
    (sessionId : Int) :
    NodeSessionsFrom gives before (after.removeSession sessionId) := by
  intro other session found
  rw [findPutSession_eq_some] at found
  exact from_ other session
    (findPutSession_eq_some.mpr (Table.lookup_of_lookup_erase found))

/-- A new entry, whose node's session is unset, known or given. -/
theorem of_inserted {sessionId : Int} {entry : Session}
    (inserted : after.sessionList =
      before.sessionList.insert sessionId entry)
    (known : ∀ session, entry = .put session →
      session.nodeSessionId = 0 ∨
      (∃ old, before.findPutSession sessionId = some old ∧
        old.nodeSessionId = session.nodeSessionId) ∨
      gives sessionId session.nodeSessionId) :
    NodeSessionsFrom gives before after := by
  intro other session found
  rw [findPutSession_eq_some, inserted] at found
  rcases Table.lookup_of_lookup_insert found with ⟨rfl, same⟩ | old
  · exact known session same
  · exact refl before other session (findPutSession_eq_some.mpr old)

end NodeSessionsFrom

end FileSessionManager

/-- The node's sessions of a server come from those of before. -/
def GivesOnly (gives : Int → Int → Prop) (before after : Server) : Prop :=
  FileSessionManager.NodeSessionsFrom gives before.sessions after.sessions

section NodeSessions

variable {server : Server} {connId : Int} {package : Package Message}
  {gives : Int → Int → Prop}

theorem putSession_nodeSessions {owner : Int → Int}
    (owned : server.files.Owned owner) (keyed : server.sessions.Keyed)
    (user : User) (group : SharingGroup) (request : ReqPutFileSession) :
    NodeSessionsFrom gives server.sessions
      ((putSession user group request).after server).sessions := by
  suffices ensures : Action.Ensures (putSession user group request) server
      (fun _ later => NodeSessionsFrom gives server.sessions later.sessions)
      (fun _ later => NodeSessionsFrom gives server.sessions
        later.sessions) from Action.ensures_after.mp ensures
  have same : NodeSessionsFrom gives server.sessions server.sessions :=
    .refl _
  refine (putSession_run user group request owned keyed).mono ?_ ?_
  · intro session later run
    cases run with
    | reused proceeds live list => exact same.of_list list.sessionList
    | registered uploads stored sessionList nextId =>
        refine .of_inserted sessionList ?_
        rintro _ ⟨⟩
        exact Or.inl rfl
  · intro fault later run
    cases run with
    | refused stopped list => exact same.of_list list.sessionList
    | unlisted uploads stored list => exact same.of_list list.sessionList

theorem getSession_nodeSessions (keyed : server.sessions.Keyed)
    (userId groupId : Int) (filePath : Text) :
    NodeSessionsFrom gives server.sessions
      ((getSession userId groupId filePath).after server).sessions := by
  obtain ⟨sessions, changed, list | ⟨sessionList, -⟩⟩ :=
    getSession_run keyed userId groupId filePath
  · rw [changed]
    exact (NodeSessionsFrom.refl _).of_list list.sessionList
  · rw [changed]
    refine .of_inserted sessionList ?_
    rintro _ ⟨⟩

/-- `on_init` of no class gives a put session one of a node. -/
theorem onInit_nodeSessions {owner : Int → Int}
    (owned : server.files.Owned owner) (keyed : server.sessions.Keyed)
    (trans : MultiplyPhaseTransaction TransSelf) (self : TransSelf) :
    Frame.Leads (onInit trans connId package) (Worker.startFrame server self)
      (GivesOnly gives server) := by
  have same : GivesOnly gives server server := .refl _
  unfold onInit
  split
  · refine .bind_onApp_check same fun user login => .bind_check same
      fun request parsed => .bind_onApp_check same fun group managed => ?_
    have left : GivesOnly gives server _ :=
      putSession_nodeSessions owned keyed user group request
    exact .bind_onApp (fun _ => left) fun _ _ => .bind_setSelf
      (.bind_onApp_check left fun _ _ => .bind_serviceSendProtocol fun _ =>
        .serviceWaitNextPhase left)
  · have advanced {request : ReqPutFile} {session : PutFileSession}
        (found : server.sessions.findPutSession request.sessionId =
          some session) :
        GivesOnly gives server (advance server request session) := by
      refine .of_inserted rfl ?_
      rintro _ ⟨⟩
      exact Or.inr (Or.inl ⟨session, found, rfl⟩)
    suffices ensures : Action.Ensures
        (PutFileTrans.onInit trans connId package)
        (Worker.startFrame server self)
        (fun _ frame => GivesOnly gives server frame.app)
        (fun _ frame => GivesOnly gives server frame.app) from
      .of_after (Action.ensures_after.mp ensures)
    refine (PutFileTrans.onInit_run trans connId package server self).mono
      ?_ ?_
    · intro _ frame run
      cases run with
      | forwarded advances listed known => exact advanced advances.found
    · intro fault frame run
      cases run with
      | refused => exact same
      | lost advances missing => exact advanced advances.found
  · refine .bind_onApp_check same fun user login => .bind_check same
      fun (groupId, filePath) parsed => .bind_onApp_check same
        fun group listed => .bind_throwIf same fun member => ?_
    refine leads_reader (after_generalFileAt group _ _) same
      fun storageFileId _ => ?_
    refine leads_reader (after_storageNodeOf storageFileId _) same
      fun nodeId _ => ?_
    have left : GivesOnly gives server _ :=
      getSession_nodeSessions keyed user.userId groupId filePath
    exact .bind_onApp (fun _ => left) fun _ _ => .bind_setSelf
      (.bind_onApp_check left fun _ _ => .bind_serviceSendProtocol fun _ =>
        .serviceWaitNextPhase left)
  · refine .bind_onApp_check same fun user login => .bind_check same
      fun request parsed => .bind_check same fun session got =>
        .bind_throwIf same fun own => .bind_onApp_check same
          fun group listed => ?_
    refine leads_reader (after_generalFileAt group _ _) same
      fun storageFileId _ => .bind_setSelf ?_
    refine leads_reader (after_storageNodeOf storageFileId _) same
      fun nodeId _ => .bind_onApp_check same fun _ _ =>
        .bind_serviceSendProtocol fun _ => .serviceWaitNextPhase same
  · exact .bind_onApp_check same fun user login => .bind_check same
      fun (groupId, path) parsed => .bind_onApp_check same
        fun group managed => .of_after same

/-- The package answers the request for the node's session of the put
session. -/
def GivesNodeSession (worker : ServerWorker) (connId serviceId : Int)
    (package : Package Message) (sessionId nodeSessionId : Int) : Prop :=
  ∃ waiting response, worker.waitingTransaction package = some waiting ∧
    waiting.fits connId serviceId package.command = true ∧
    waiting.self = .putFileSession sessionId ∧
    package.content = some (.rspNodePutFileSession response) ∧
    response.error = none ∧ response.sessionId = nodeSessionId

theorem parse_rspNodePutFileSession {response : RspNodePutFileSession}
    (parsed : package.parseToProtocol Message.asRspNodePutFileSession =
      .ok response) (noError : response.error = none) :
    package.content = some (.rspNodePutFileSession response) := by
  obtain ⟨message, content, selected⟩ := content_of_parse parsed
  rw [content]
  unfold Message.asRspNodePutFileSession at selected
  split at selected
  · rw [Option.some.inj selected]
  · cases selected
    cases noError
  · cases selected

theorem onActive_nodeSessions {worker : ServerWorker} {serviceId : Int}
    {waiting : MultiplyPhaseTransaction TransSelf}
    (answers : worker.waitingTransaction package = some waiting)
    (fits : waiting.fits connId serviceId package.command = true) :
    Frame.Leads (onActive waiting.clearWaitingState connId package)
      (Worker.startFrame worker.app waiting.self)
      (GivesOnly (GivesNodeSession worker connId serviceId package)
        worker.app) := by
  have same : GivesOnly (GivesNodeSession worker connId serviceId package)
      worker.app worker.app := .refl _
  unfold onActive
  split <;> rename_i sessionId self
  · refine .bind_check same fun response parsed => ?_
    cases noError : response.error with
    | some info =>
        exact leads_removeSession _ (same.removeSession sessionId)
          fun _ kept => .of_after kept
    | none =>
        have content := parse_rspNodePutFileSession parsed noError
        have given : GivesOnly
            (GivesNodeSession worker connId serviceId package) worker.app
            ((Server.onSessions (FileSessionManager.setPutNodeSession
              sessionId response.sessionId)).after worker.app) := by
          rw [Server.after_onSessions, GivesOnly]
          simp only [FileSessionManager.setPutNodeSession, Action.after]
          split
          · exact same
          · refine .of_inserted rfl ?_
            rintro _ ⟨⟩
            exact Or.inr (Or.inr ⟨waiting, response, answers, fits, self,
              content, noError, rfl⟩)
        exact .bind_onApp (fun _ => given) fun _ _ => .sendBackProtocol given
  · exact .bind_onApp_check same fun _ _ => .bind_check same fun _ _ =>
      .sendBackProtocol same
  · refine .bind_check same fun response parsed => ?_
    split
    · exact leads_removeSession _ (same.removeSession sessionId)
        fun _ kept => .of_after kept
    · have given : GivesOnly
          (GivesNodeSession worker connId serviceId package) worker.app
          ((Server.onSessions (FileSessionManager.setGetNodeSession
            sessionId response.sessionId)).after worker.app) := by
        rw [Server.after_onSessions, GivesOnly]
        simp only [FileSessionManager.setGetNodeSession, Action.after]
        split
        · exact same
        · refine .of_inserted rfl ?_
          rintro _ ⟨⟩
      exact .bind_onApp (fun _ => given) fun _ _ => .sendBackProtocol given
  · exact .bind_onApp_check same fun _ _ => .bind_check same fun _ _ =>
      .sendBackProtocol same
  · exact .of_after same

variable {messageSize : Message → Nat} {worker later : ServerWorker}

theorem errorsKeep_givesOnly (before : Server) :
    Worker.ErrorsKeep (program messageSize) (GivesOnly gives before) := by
  intro failed connId errorInfo frame kept
  refine .of_after ?_
  change NodeSessionsFrom gives before.sessions ((onError messageSize failed
    connId errorInfo).after frame).app.sessions
  rw [onError_sessions]
  split
  · exact kept.removeSession _
  · exact kept

/-- Where the node's session of a put session comes from in a step. -/
theorem nodeSessions_of_receive {now serviceId : Int}
    (reachable : (serverMachine messageSize).Reachable worker)
    (received : Worker.receive (program messageSize) now connId serviceId
      package worker = some later) :
    NodeSessionsFrom (GivesNodeSession worker connId serviceId package)
      worker.app.sessions later.app.sessions := by
  obtain ⟨owner, forest⟩ := (Sound.of_reachable reachable).running
  have keyed := keyed_of_reachable reachable
  have same : GivesOnly (GivesNodeSession worker connId serviceId package)
      worker.app worker.app := .refl _
  refine Worker.receive_post same ?_ ?_ ?_ ?_ received
  · intro _ handler registered
    have kept := onePhase_leavesSessions registered now connId package
      (Worker.startFrame worker.app ())
    exact .of_after ((NodeSessionsFrom.refl _).of_list
      (congrArg FileSessionManager.sessionList kept))
  · intro _ factory trans _ _
    exact onInit_nodeSessions forest.owned keyed trans factory
  · intro waiting answers fits
    exact onActive_nodeSessions answers fits
  · exact errorsKeep_givesOnly worker.app

/-- Only an answer gives a put session one of a node. -/
theorem nodeSessions_of_step {event : Worker.Event Message ServerCall}
    (reachable : (serverMachine messageSize).Reachable worker)
    (stepped : Worker.step (program messageSize) worker event =
      some later) :
    NodeSessionsFrom (fun sessionId nodeSessionId =>
        ∃ now connId serviceId package,
          event = .receive now connId serviceId package ∧
          GivesNodeSession worker connId serviceId package sessionId
            nodeSessionId)
      worker.app.sessions later.app.sessions := by
  cases event with
  | receive now connId serviceId package =>
      intro sessionId session found
      refine (nodeSessions_of_receive reachable stepped sessionId session
        found).imp_right fun known => known.imp_right fun given => ?_
      exact ⟨now, connId, serviceId, package, rfl, given⟩
  | internal call =>
      rw [← after_of_internal stepped, internal_sessions]
      exact .refl _
  | expire now timerId =>
      have expired : Worker.processExpiryTimer (program messageSize) now
          timerId worker = some later := stepped
      have kept (gives : Int → Int → Prop) :
          GivesOnly gives worker.app later.app :=
        Worker.processExpiryTimer_post (.refl _)
          (errorsKeep_givesOnly worker.app) expired
      exact kept _

end NodeSessions

/-! ## Where a put session leads -/

/-- While the put session is live, it is for a file of the name, in a group
whose node has the service. -/
structure Routes (server : Server) (sessionId : Int) (filename : Text)
    (serviceId : Int) : Prop where
  known : sessionId < server.sessions.nextId
  leads : ∀ session,
    server.sessions.findPutSession sessionId = some session →
    (FilePath.ofText session.filePath).filename = filename ∧
      OnService server session.groupId serviceId

section Step

variable {messageSize : Message → Nat} {worker later : ServerWorker}
  {event : Worker.Event Message ServerCall}

/-- A put session after a step was there before, with its place, or is new. -/
theorem putSession_of_step
    (reachable : (serverMachine messageSize).Reachable worker)
    (stepped : Worker.step (program messageSize) worker event = some later)
    {sessionId : Int} {session : PutFileSession}
    (found : later.app.sessions.findPutSession sessionId = some session) :
    (∃ old, worker.app.sessions.findPutSession sessionId = some old ∧
      old.groupId = session.groupId ∧ old.filePath = session.filePath) ∨
      sessionId = worker.app.sessions.nextId ∧ session.nodeSessionId = 0 := by
  obtain ⟨owner, forest⟩ := (Sound.of_reachable reachable).running
  have comes := SessionsFrom.of_changed forest.owned
    (keyed_of_reachable reachable) (step_changed stepped)
  generalize eventSource worker event = source at comes
  rcases comes.origin sessionId _ (findPutSession_eq_some.mp found) with
    ⟨old, before, continues⟩ | ⟨new, opens⟩
  · have same := Session.place_of_registered continues.registered
    cases old with
    | get old => cases continues
    | put old =>
        obtain ⟨group, path⟩ := Prod.mk.inj same
        exact Or.inl ⟨old, findPutSession_eq_some.mpr before, group.symm,
          path.symm⟩
  · cases opens with
    | put request command content manages uploads => exact Or.inr ⟨new, rfl⟩

theorem Routes.step {sessionId serviceId : Int} {filename : Text}
    (routes : Routes worker.app sessionId filename serviceId)
    (served : serviceId ≠ 0)
    (reachable : (serverMachine messageSize).Reachable worker)
    (stepped : Worker.step (program messageSize) worker event = some later)
    (keeps : KeepsEachService worker.app event) :
    Routes later.app sessionId filename serviceId := by
  obtain ⟨owner, forest⟩ := (Sound.of_reachable reachable).running
  have comes := SessionsFrom.of_changed forest.owned
    (keyed_of_reachable reachable) (step_changed stepped)
  have known := routes.known
  refine ⟨Int.lt_of_lt_of_le known comes.grows, ?_⟩
  intro session found
  rcases putSession_of_step reachable stepped found with
    ⟨old, before, group, path⟩ | ⟨new, -⟩
  · obtain ⟨named, on⟩ := routes.leads old before
    rw [← group, ← path]
    exact ⟨named, on.step served reachable stepped keeps⟩
  · omega

end Step

/-! ## The request for the node's session -/

/-- What `PutFileSessionTrans::on_init` sends to the node. -/
def nodeSessionRequest (transId serviceId : Int) (session : PutFileSession) :
    Send Message where
  connId := 0
  message := .reqNodePutFileSession
    { filePath := (FilePath.ofText session.filePath).filename
      maxFragment := session.maxFragment }
  bindTransId := transId
  triggerPackageId := 0
  triggerCmd := 0
  serviceId := serviceId

/-- How `PutFileSessionTrans::on_init` ends: without a request, or with one to
the service that the session leads to. -/
inductive SessionAskRun (server : Server) (transId : Int) :
    Except Fault Unit → Frame Server TransSelf Message → Prop
  | refused {fault frame} (quiet : frame.sends = []) :
      SessionAskRun server transId (.error fault) frame
  | asked {app nodeId node} {session : PutFileSession}
      (known : server.nodes.findNode nodeId = some node)
      (routes : Routes app session.sessionId
        (FilePath.ofText session.filePath).filename node.serviceId) :
      SessionAskRun server transId (.ok ())
        { app := app
          self := .putFileSession session.sessionId
          sends := [nodeSessionRequest transId node.serviceId session]
          waits :=
            [{ connId := 0, cmd := rspNodePutFileSession
               timeout := defaultTimeout, serviceId := node.serviceId }] }

section Start

variable {server : Server} {owner : Int → Int}

/-- The session of a request leads to the node of its group. -/
theorem putSession_routes (owned : server.files.Owned owner)
    (keyed : server.sessions.Keyed) (filed : server.sessions.Filed)
    {user : User} {group : SharingGroup} {request : ReqPutFileSession}
    (listed : server.groups.findGroup request.groupId = some group) :
    Action.Ensures (putSession user group request) server
      (fun session later => later.nodes = server.nodes ∧
        ∀ node, server.nodes.findNode group.nodeId = some node →
          Routes later session.sessionId
            (FilePath.ofText session.filePath).filename node.serviceId)
      (fun _ _ => True) := by
  refine (Action.ensures_self (putSession user group request) server).mono
    ?_ fun _ _ _ => trivial
  intro session later ran
  have origin := (putSession_origin user group request keyed).of_ok ran
  cases (putSession_run user group request owned keyed).of_ok ran with
  | reused proceeds live same =>
      refine ⟨rfl, fun node found => ⟨?_, fun other stored => ?_⟩⟩
      · rw [same.nextId]
        exact (keyed.bounds _ _ live).2.1
      · rw [findPutSession_eq_some, same.sessionList, live] at stored
        cases stored
        rcases origin with ⟨looked, sameMax⟩ | next
        · have place := filed.place_of_findPutSessionOf looked
          refine ⟨rfl, group, node, ?_, found, rfl⟩
          rw [place.1]
          exact listed
        · rw [next, keyed.not_found_nextId] at live
          cases live
  | registered uploads stored sessionList nextId =>
      refine ⟨rfl, fun node found => ⟨?_, fun other live => ?_⟩⟩
      · rw [nextId]
        exact Int.lt_succ _
      · rw [findPutSession_eq_some, sessionList] at live
        change (server.sessions.sessionList.insert server.sessions.nextId
          _)[server.sessions.nextId]? = _ at live
        rw [Table.lookup_insert_self] at live
        cases live
        exact ⟨rfl, group, node, listed, found, rfl⟩

theorem PutFileSessionTrans.onInit_asks (owned : server.files.Owned owner)
    (keyed : server.sessions.Keyed) (filed : server.sessions.Filed)
    (trans : MultiplyPhaseTransaction TransSelf) (connId : Int)
    (package : Package Message) (self : TransSelf) :
    Action.Ensures (PutFileSessionTrans.onInit trans connId package)
      (Worker.startFrame server self)
      (fun _ frame => SessionAskRun server trans.id (.ok ()) frame)
      (fun fault frame => SessionAskRun server trans.id (.error fault)
        frame) := by
  simp only [PutFileSessionTrans.onInit, Action.ensures_bind,
    ensures_onApp, Server.getLoginUser, parse, managedGroup, Server.getNode,
    Action.ensures_check, ensures_setSelf, ensures_serviceSendProtocol,
    ensures_serviceWaitNextPhase, Worker.startFrame]
  refine ⟨fun user login => ⟨fun request parsed => ⟨fun group managed => ?_,
    fun _ _ => .refused rfl⟩, fun _ _ => .refused rfl⟩,
    fun _ _ => .refused rfl⟩
  obtain ⟨listed, manager⟩ := found_of_managed managed
  refine (putSession_routes owned keyed filed listed).mono ?_ ?_
  · rintro session later ⟨nodes, routes⟩
    refine ⟨fun node got => ?_, fun _ _ => .refused rfl⟩
    have known := StorageNodeManager.findNode_of_getNode got
    rw [nodes] at known
    exact .asked known (routes node known)
  · exact fun _ _ _ => .refused rfl

end Start

/-- The transaction waits for the service that its session leads to. -/
structure AwaitsSession (server : Server) (sessionId : Int) (filename : Text)
    (serviceId : Int) (trans : MultiplyPhaseTransaction TransSelf) :
    Prop where
  self : trans.self = .putFileSession sessionId
  waitConnId : trans.waitConnId = 0
  waitServiceId : trans.waitServiceId = serviceId
  routes : Routes server sessionId filename serviceId

section Started

variable {messageSize : Message → Nat} {worker later : ServerWorker}
  {now connId serviceId : Int} {package : Package Message}

/-- How the transaction of a request for a put session starts. -/
inductive SessionStarted (worker : ServerWorker)
    (sends : List (Send Message)) (later : ServerWorker) : Prop
  | refused (quiet : sends = [])
      (entry : later.transList[worker.nextTransId]? = none)
  | asked {nodeId node trans} {session : PutFileSession}
      (known : worker.app.nodes.findNode nodeId = some node)
      (sent : sends =
        [nodeSessionRequest worker.nextTransId node.serviceId session])
      (entry : later.transList[worker.nextTransId]? = some trans)
      (awaits : AwaitsSession later.app session.sessionId
        (FilePath.ofText session.filePath).filename node.serviceId trans)

theorem sessionStarted
    (reachable : (serverMachine messageSize).Reachable worker)
    (starts : worker.waitingTransaction package = none)
    (command : package.command = 1027)
    (received : Worker.receive (program messageSize) now connId serviceId
      package worker = some later) :
    SessionStarted worker
      ((onInit (.init worker.nextTransId (.putFileSession 0) connId
        package.triggerSource) connId package).after
          (Worker.startFrame worker.app (.putFileSession 0))).sends later := by
  have registered : findTransaction package.command =
      some (.multiplyPhase (.putFileSession 0)) := by
    rw [command]
    rfl
  have own := (Worker.receive_turned received).own
  rw [Worker.turn_of_starts starts registered] at own
  obtain ⟨owner, forest⟩ := (Sound.of_reachable reachable).running
  have runs := PutFileSessionTrans.onInit_asks forest.owned
    (keyed_of_reachable reachable)
    (filed_of_reachable (sessions_reachable reachable))
    (.init worker.nextTransId (.putFileSession 0) connId
      package.triggerSource) connId package (.putFileSession 0)
  cases started_of_factory starts registered (by simp) received with
  | @waits frame waiting ran app entry transId self =>
      have left : (onInit (.init worker.nextTransId (.putFileSession 0)
          connId package.triggerSource) connId package).after
            (Worker.startFrame worker.app (.putFileSession 0)) = frame :=
        congrArg Prod.snd ran
      rw [left]
      have run := runs.of_ok ran
      cases run with
      | asked known routes =>
          have kept := own _ rfl
          rw [Worker.memberTurn, Worker.memberCalls_of_ok ran] at kept
          obtain ⟨last, found⟩ := kept
          cases entry.symm.trans found
          refine .asked known rfl entry ⟨self, rfl, rfl, ?_⟩
          rw [app]
          exact routes
  | @ends frame fault failed errorInfo ran self app entry =>
      have left : (onInit (.init worker.nextTransId (.putFileSession 0)
          connId package.triggerSource) connId package).after
            (Worker.startFrame worker.app (.putFileSession 0)) = frame :=
        congrArg Prod.snd ran
      rw [left]
      have run := runs.of_error ran
      cases run with
      | refused quiet => exact .refused quiet entry

/-- A transaction that waits for a node's session was registered before, or
the package has started it. -/
theorem registered_putFileSession
    (reachable : (serverMachine messageSize).Reachable worker)
    (received : Worker.receive (program messageSize) now connId serviceId
      package worker = some later) {transId : Int}
    {trans : MultiplyPhaseTransaction TransSelf} {sessionId : Int}
    (found : later.transList[transId]? = some trans)
    (self : trans.self = .putFileSession sessionId) :
    worker.transList[transId]? = some trans ∨
      ∃ nodeId node filename,
        worker.app.nodes.findNode nodeId = some node ∧
        AwaitsSession later.app sessionId filename node.serviceId trans := by
  refine (registered_of_receive received found).imp_right ?_
  rintro ⟨rfl, starts, factory, registered, class_⟩
  have command := command_of_findTransaction registered
  rw [class_, self] at command
  cases sessionStarted reachable starts command received with
  | refused quiet entry =>
      rw [entry] at found
      cases found
  | asked known sent entry awaits =>
      cases entry.symm.trans found
      cases self.symm.trans awaits.self
      exact ⟨_, _, _, known, awaits⟩

/-- A request for a node's session comes from `PutFileSessionTrans::on_init`,
whose transaction then waits for the session that leads to the service. -/
theorem awaits_of_turn {event : Worker.Event Message ServerCall}
    (reachable : (serverMachine messageSize).Reachable worker)
    (stepped : Worker.step (program messageSize) worker event = some later)
    {send : Send Message}
    (sent : send ∈ (worker.turn (program messageSize) event).sends)
    {request : ReqNodePutFileSession}
    (message : send.message = .reqNodePutFileSession request) :
    ∃ now connId serviceId package nodeId node trans sessionId,
      event = .receive now connId serviceId package ∧
      worker.app.nodes.findNode nodeId = some node ∧
      send.serviceId = node.serviceId ∧
      send.bindTransId = worker.nextTransId ∧
      later.transList[worker.nextTransId]? = some trans ∧
      AwaitsSession later.app sessionId request.filePath node.serviceId
        trans := by
  have asks : send.message.command =
      (TransSelf.putFileSession 0).nodeCommand := by
    rw [message]
    rfl
  obtain ⟨now, connId, serviceId, package, factory, rfl, starts, registered,
    class_, own⟩ := started_of_request sent asks (by simp)
  have command := command_of_findTransaction registered
  rw [class_] at command
  rw [command] at registered
  cases registered
  cases sessionStarted reachable starts command stepped with
  | refused quiet entry =>
      rw [quiet] at own
      cases own
  | asked known sends entry awaits =>
      rw [sends] at own
      rw [List.mem_singleton.mp own] at message ⊢
      cases message
      exact ⟨now, connId, serviceId, package, _, _, _, _, rfl, known, rfl,
        rfl, entry, awaits⟩

end Started

end ResourceServer
end Spaceless
