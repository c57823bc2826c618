import Spaceless.ResourceServer.Requests

/-!
# How the server passes a download on

`GetFileTrans` sends the request for a fragment to the node of the file and
the bytes of the answer to the client.  No other handler sends messages of
these two kinds, so each of them leads back to one turn of such a
transaction.
-/

namespace Spaceless
namespace ResourceServer

open Logic Foundation Protocol Frame FileSessionManager

/-! ## The request -/

/-- The request is made by the user of the session on its own connection, and
the file of the session is on the node of the service. -/
structure Reads (server : Server) (connId : Int) (package : Package Message)
    (request : ReqGetFile) (session : GetFileSession) (serviceId : Int) :
    Prop where
  content : package.content = some (.reqGetFile request)
  found : server.sessions.findGetSession request.sessionId = some session
  owner : ∃ user, server.users.findLoginUser connId = some user ∧
    session.userId = user.userId
  stored : ∃ group storageFileId nodeId node,
    server.groups.findGroup session.groupId = some group ∧
    generalFileAt group (FilePath.ofText session.filePath) server =
      (.ok storageFileId, server) ∧
    storageNodeOf storageFileId server = (.ok nodeId, server) ∧
    server.nodes.findNode nodeId = some node ∧ node.serviceId = serviceId

/-- What `GetFileTrans::on_init` sends to the node. -/
def nodeRequest (transId serviceId : Int) (session : GetFileSession)
    (request : ReqGetFile) : Send Message where
  connId := 0
  message := .reqGetFile
    { sessionId := session.nodeSessionId
      fragmentIndex := request.fragmentIndex }
  bindTransId := transId
  triggerPackageId := 0
  triggerCmd := 0
  serviceId := serviceId

/-- How `GetFileTrans::on_init` ends. -/
inductive GetFileRun (server : Server) (connId : Int)
    (package : Package Message) (transId : Int) :
    Except Fault Unit → Frame Server TransSelf Message → Prop
  | refused {fault frame} (sends : frame.sends = [])
      (waits : frame.waits = []) :
      GetFileRun server connId package transId (.error fault) frame
  | forwarded {request session serviceId}
      (reads : Reads server connId package request session serviceId) :
      GetFileRun server connId package transId (.ok ())
        { app := server
          self := .getFile session.sessionId
          sends := [nodeRequest transId serviceId session request]
          waits :=
            [{ connId := 0, cmd := rspGetFile, timeout := defaultTimeout
               serviceId := serviceId }] }

theorem GetFileTrans.onInit_run
    (trans : MultiplyPhaseTransaction TransSelf) (connId : Int)
    (package : Package Message) (server : Server) (self : TransSelf) :
    Action.Ensures (GetFileTrans.onInit trans connId package)
      (Worker.startFrame server self)
      (fun _ frame => GetFileRun server connId package trans.id (.ok ())
        frame)
      (fun fault frame => GetFileRun server connId package trans.id
        (.error fault) frame) := by
  have refused (fault : Fault) (app : Server) (self : TransSelf) :
      GetFileRun server connId package trans.id (.error fault)
        { app := app, self := self, sends := [], waits := [] } :=
    .refused rfl rfl
  simp only [GetFileTrans.onInit, Action.ensures_bind, ensures_onApp,
    Server.getLoginUser, Server.getGroup, Server.getNode, parse,
    Action.ensures_check, Action.ensures_throwIf, ensures_setSelf,
    ensures_serviceSendProtocol, ensures_serviceWaitNextPhase,
    Worker.startFrame]
  refine ⟨fun user login => ⟨fun request parsed => ⟨fun session got =>
    ⟨fun _ => refused _ _ _, fun own => ⟨fun group listed => ?_,
      fun _ _ => refused _ _ _⟩⟩, fun _ _ => refused _ _ _⟩,
    fun _ _ => refused _ _ _⟩, fun _ _ => refused _ _ _⟩
  have unchanged := after_generalFileAt group
    (FilePath.ofText session.filePath) server
  refine (Action.ensures_self _ _).mono ?_ fun _ _ _ => refused _ _ _
  intro storageFileId later general
  rw [general] at unchanged
  change later = server at unchanged
  subst unchanged
  have untouched := after_storageNodeOf storageFileId later
  refine (Action.ensures_self _ _).mono ?_ fun _ _ _ => refused _ _ _
  intro nodeId last stored
  rw [stored] at untouched
  change last = later at untouched
  subst untouched
  refine ⟨fun node known => ?_, fun _ _ => refused _ _ _⟩
  exact .forwarded
    { content := parse_reqGetFile parsed
      found := findGetSession_of_getGetSession got
      owner := ⟨user, findLoginUser_of_getLoginUser login, not_not.mp own⟩
      stored := ⟨group, storageFileId, nodeId, node,
        findGroup_of_getGroup listed, general, stored,
        StorageNodeManager.findNode_of_getNode known, rfl⟩ }

/-- The transaction has passed the request of a connection on, and waits for
the service. -/
structure PassedOn (connId : Int) (package : Package Message)
    (session : GetFileSession) (serviceId : Int)
    (trans : MultiplyPhaseTransaction TransSelf) : Prop where
  firstConnId : trans.firstConnId = connId
  firstTriggerSource : trans.firstTriggerSource = package.triggerSource
  self : trans.self = .getFile session.sessionId
  waitConnId : trans.waitConnId = 0
  waitServiceId : trans.waitServiceId = serviceId

variable {messageSize : Message → Nat} {worker later : ServerWorker}
  {now connId serviceId : Int} {package : Package Message}

/-- How the transaction of a request to get a fragment starts. -/
inductive GetFileStarted (worker : ServerWorker) (connId : Int)
    (package : Package Message) (sends : List (Send Message))
    (later : ServerWorker) : Prop
  | refused (quiet : sends = [])
      (entry : later.transList[worker.nextTransId]? = none)
  | forwarded {request session serviceId trans}
      (reads : Reads worker.app connId package request session serviceId)
      (sent : sends =
        [nodeRequest worker.nextTransId serviceId session request])
      (entry : later.transList[worker.nextTransId]? = some trans)
      (passedOn : PassedOn connId package session serviceId trans)

theorem getFileStarted
    (starts : worker.waitingTransaction package = none)
    (command : package.command = 1037)
    (received : Worker.receive (program messageSize) now connId serviceId
      package worker = some later) :
    GetFileStarted worker connId package
      ((onInit (.init worker.nextTransId (.getFile 0) connId
        package.triggerSource) connId package).after
          (Worker.startFrame worker.app (.getFile 0))).sends later := by
  have registered : findTransaction package.command =
      some (.multiplyPhase (.getFile 0)) := by
    rw [command]
    rfl
  have own := (Worker.receive_turned received).own
  rw [Worker.turn_of_starts starts registered] at own
  have runs := GetFileTrans.onInit_run (.init worker.nextTransId (.getFile 0)
    connId package.triggerSource) connId package worker.app (.getFile 0)
  cases started_of_factory starts registered (by simp) received with
  | @waits frame waiting ran app entry transId self =>
      have left : (onInit (.init worker.nextTransId (.getFile 0) connId
          package.triggerSource) connId package).after
            (Worker.startFrame worker.app (.getFile 0)) = frame :=
        congrArg Prod.snd ran
      rw [left]
      have run := runs.of_ok ran
      cases run with
      | @forwarded request session serviceId reads =>
          have kept := own _ rfl
          rw [Worker.memberTurn, Worker.memberCalls_of_ok ran] at kept
          obtain ⟨last, found⟩ := kept
          cases entry.symm.trans found
          exact .forwarded reads rfl entry ⟨rfl, rfl, self, rfl, rfl⟩
  | @ends frame fault failed errorInfo ran self app entry =>
      have left : (onInit (.init worker.nextTransId (.getFile 0) connId
          package.triggerSource) connId package).after
            (Worker.startFrame worker.app (.getFile 0)) = frame :=
        congrArg Prod.snd ran
      rw [left]
      have run := runs.of_error ran
      cases run with
      | refused sends waits => exact .refused sends entry

/-- A transaction that passes a download on was registered before, or has
passed the request on in the step. -/
theorem registered_getFile
    (received : Worker.receive (program messageSize) now connId serviceId
      package worker = some later) {transId : Int}
    {trans : MultiplyPhaseTransaction TransSelf} {sessionId : Int}
    (found : later.transList[transId]? = some trans)
    (self : trans.self = .getFile sessionId) :
    worker.transList[transId]? = some trans ∨
      ∃ request session serviceId,
        Reads worker.app connId package request session serviceId ∧
        PassedOn connId package session serviceId trans := by
  refine (registered_of_receive received found).imp_right ?_
  rintro ⟨rfl, starts, factory, registered, class_⟩
  have command := command_of_findTransaction registered
  rw [class_, self] at command
  cases getFileStarted starts command received with
  | refused quiet entry =>
      rw [entry] at found
      cases found
  | forwarded reads sent entry passedOn =>
      cases entry.symm.trans found
      exact ⟨_, _, _, reads, passedOn⟩

/-! ## The sends of a turn -/

theorem parse_rspGetFile {response : RspGetFile}
    (parsed : package.parseToProtocol Message.asRspGetFile = .ok response)
    (noError : response.error = none) :
    package.content = some (.rspGetFile response) := by
  obtain ⟨message, content, selected⟩ := content_of_parse parsed
  rw [content]
  unfold Message.asRspGetFile at selected
  split at selected
  · rw [Option.some.inj selected]
  · cases selected
    cases noError
  · cases selected

/-- `GetFileTrans::on_active` passes the response on under the id of the
session. -/
theorem GetFileTrans.onActive_run
    (trans : MultiplyPhaseTransaction TransSelf) (sessionId : Int)
    (package : Package Message) (server : Server) (self : TransSelf) :
    Action.Ensures (GetFileTrans.onActive trans sessionId package)
      (Worker.startFrame server self)
      (fun _ frame => ∃ response,
        package.parseToProtocol Message.asRspGetFile = .ok response ∧
        frame.sends =
          [.reply trans.firstConnId
            (.rspGetFile { response with sessionId := sessionId })
            trans.firstTriggerSource])
      (fun _ frame => frame.sends = []) := by
  simp only [GetFileTrans.onActive, Action.ensures_bind, ensures_onApp,
    Server.getLoginUser, parse, Action.ensures_check, sendBackMessage,
    ensures_sendBackProtocol, Worker.startFrame]
  exact ⟨fun user login => ⟨fun response parsed => ⟨response, parsed, rfl⟩,
    fun _ _ => True.intro⟩, fun _ _ => True.intro⟩

/-- A request for a fragment comes from `GetFileTrans::on_init`. -/
theorem passedOn_of_turn {event : Worker.Event Message ServerCall}
    (stepped : Worker.step (program messageSize) worker event = some later)
    {send : Send Message}
    (sent : send ∈ (worker.turn (program messageSize) event).sends)
    {forwarded : ReqGetFile} (message : send.message = .reqGetFile forwarded) :
    ∃ now connId serviceId package request session target trans,
      event = .receive now connId serviceId package ∧
      Reads worker.app connId package request session target ∧
      send = nodeRequest worker.nextTransId target session request ∧
      later.transList[worker.nextTransId]? = some trans ∧
      PassedOn connId package session target trans := by
  have asks : send.message.command = (TransSelf.getFile 0).nodeCommand := by
    rw [message]
    rfl
  obtain ⟨now, connId, serviceId, package, factory, rfl, starts, registered,
    class_, own⟩ := started_of_request sent asks (by simp)
  have command := command_of_findTransaction registered
  rw [class_] at command
  rw [command] at registered
  cases registered
  cases getFileStarted starts command stepped with
  | refused quiet entry =>
      rw [quiet] at own
      cases own
  | forwarded reads sends entry passedOn =>
      rw [sends] at own
      exact ⟨now, connId, serviceId, package, _, _, _, _, rfl, reads,
        List.mem_singleton.mp own, entry, passedOn⟩

/-- A response comes from `GetFileTrans::on_active`. -/
theorem passedBack_of_turn {event : Worker.Event Message ServerCall}
    {send : Send Message}
    (sent : send ∈ (worker.turn (program messageSize) event).sends)
    {response : RspGetFile} (message : send.message = .rspGetFile response)
    (noError : response.error = none) :
    ∃ now connId serviceId package waiting sessionId answer,
      event = .receive now connId serviceId package ∧
      worker.waitingTransaction package = some waiting ∧
      waiting.fits connId serviceId package.command = true ∧
      waiting.self = .getFile sessionId ∧
      package.content = some (.rspGetFile answer) ∧
      response = { answer with sessionId := sessionId } ∧
      send = .reply waiting.firstConnId (.rspGetFile response)
        waiting.firstTriggerSource := by
  have answered : send.message.command =
      (TransSelf.getFile 0).command + 1 := by
    rw [message]
    rfl
  obtain ⟨now, connId, serviceId, package, waiting, rfl, answers, fits,
    class_, own⟩ := active_of_answer sent answered (by simp)
  obtain ⟨sessionId, self⟩ : ∃ sessionId,
      waiting.self = .getFile sessionId := by
    cases taken : waiting.self with
    | getFile sessionId => exact ⟨sessionId, rfl⟩
    | _ =>
        rw [taken] at class_
        cases class_
  have handler : onActive waiting.clearWaitingState connId package =
      GetFileTrans.onActive waiting.clearWaitingState sessionId package := by
    unfold onActive
    rw [show waiting.clearWaitingState.self = .getFile sessionId from self]
  have runs := GetFileTrans.onActive_run waiting.clearWaitingState sessionId
    package worker.app waiting.self
  rw [handler, Action.after] at own
  cases ran : GetFileTrans.onActive waiting.clearWaitingState sessionId
      package (Worker.startFrame worker.app waiting.self) with
  | mk result frame =>
      rw [ran] at own
      cases result with
      | ok value =>
          obtain ⟨answer, parsed, sends⟩ := runs.of_ok ran
          rw [sends] at own
          have same := List.mem_singleton.mp own
          rw [same] at message
          cases message
          exact ⟨now, connId, serviceId, package, waiting, sessionId, answer,
            rfl, answers, fits, self, parse_rspGetFile parsed noError, rfl,
            same⟩
      | error fault =>
          rw [runs.of_error ran] at own
          cases own

end ResourceServer
end Spaceless
