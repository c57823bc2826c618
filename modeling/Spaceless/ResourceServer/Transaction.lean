import Spaceless.Foundation.Worker
import Spaceless.Protocol.Message
import Spaceless.ResourceServer.Server

/-!
# The transactions of the resource server

The handlers that `main` registers, under the names of the source, and the
program that they make up on the worker.
-/

namespace Spaceless
namespace ResourceServer

open Logic Foundation Protocol

/-- The class of a multiply-phase transaction, with its `m_session_id`. -/
inductive TransSelf
  | putFileSession (sessionId : Int)
  | putFile (sessionId : Int)
  | getFileSession (sessionId : Int)
  | getFile (sessionId : Int)
  | removePath
  deriving DecidableEq

/-- Seconds of a clock reading, `std::time`. -/
def seconds (now : Int) : Int := now / 1000000000

def convertUser (user : User) : Protocol.User where
  userId := user.userId
  userName := user.userName
  groupList := user.groupList

def convertFile (file : SharingFile) : Protocol.File where
  filename := file.fileName
  type :=
    if file.fileType = .directory then .directory else .generalFile

def convertGroup (group : SharingGroup) : Protocol.SharingGroup where
  groupId := group.groupId
  groupName := group.groupName
  ownerId := group.ownerId
  managerList := group.managerList
  memberList := group.memberList

section Handlers

open Frame Server

variable {Self α : Type}

/-- `package.parse_to_protocol(request)`. -/
def parse (package : Package Message) (select : Message → Option α) :
    Handler Server Self Message α :=
  Action.check fun _ => package.parseToProtocol select

/-! ## Users -/

def onRegisterUser (connId : Int) (package : Package Message) :
    Handler Server Self Message Unit := do
  let (username, password) ← parse package fun
    | .reqRegisterUser username password => some (username, password)
    | _ => none
  let user ← onApp (onUsers
    (UserManager.registerUser username password false))
  sendBackProtocol connId (.rspRegisterUser (convertUser user))
    package.triggerSource

def onLoginUser (connId : Int) (package : Package Message) :
    Handler Server Self Message Unit := do
  let (userId, password) ← parse package fun
    | .reqLoginUser userId password => some (userId, password)
    | _ => none
  let pass ← onApp (onUsers (UserManager.login userId password connId))
  Action.throwIf (pass = false) ErrorCode.errUserLoginFailure.fault
  sendBackProtocol connId .rspLoginUser package.triggerSource

def onRemoveUser (connId : Int) (package : Package Message) :
    Handler Server Self Message Unit := do
  let removedId ← parse package fun
    | .reqRemoveUser userId => some userId
    | _ => none
  let user ← onApp (getLoginUser connId)
  let isRoot ← Action.read fun frame => frame.app.users.isRootUser user.userId
  Action.throwIf (isRoot = false) ErrorCode.errUserNotPermission.fault
  onApp (onUsers (Action.modify fun users => users.removeUser removedId))
  sendBackProtocol connId .rspRemoveUser package.triggerSource

def onFindUser (connId : Int) (package : Package Message) :
    Handler Server Self Message Unit := do
  let (userId, username) ← parse package fun
    | .reqFindUser userId username => some (userId, username)
    | _ => none
  let _ ← onApp (getLoginUser connId)
  let targetUser ← Action.check fun frame =>
    match (if userId ≠ 0 then frame.app.users.findUser userId
      else frame.app.users.findUserByName username) with
    | some user => .ok user
    | none => .error ErrorCode.errUserNotExist.fault
  sendBackProtocol connId (.rspFindUser (convertUser targetUser))
    package.triggerSource

def onPing (now connId : Int) (package : Package Message) :
    Handler Server Self Message Unit := do
  let (second, microsecond) ← parse package fun
    | .reqPing second microsecond => some (second, microsecond)
    | _ => none
  let user ← onApp (getLoginUser connId)
  onApp (onUsers (UserManager.heartbeat user.userId (seconds now)))
  sendBackProtocol connId (.rspPing second microsecond) package.triggerSource

/-! ## Groups -/

def onRegisterGroup (connId : Int) (package : Package Message) :
    Handler Server Self Message Unit := do
  let groupName ← parse package fun
    | .reqRegisterGroup groupName => some groupName
    | _ => none
  let user ← onApp (getLoginUser connId)
  let groupId ← onApp (registerGroup user.userId groupName)
  sendBackProtocol connId (.rspRegisterGroup groupId) package.triggerSource

def onFindGroup (connId : Int) (package : Package Message) :
    Handler Server Self Message Unit := do
  let (groupId, groupName) ← parse package fun
    | .reqFindGroup groupId groupName => some (groupId, groupName)
    | _ => none
  let _ ← onApp (getLoginUser connId)
  let group ← Action.check fun frame =>
    match (if groupId ≠ 0 then frame.app.groups.findGroup groupId
      else frame.app.groups.findGroupByName groupName) with
    | some group => .ok group
    | none => .error ErrorCode.errGroupNotExist.fault
  sendBackProtocol connId (.rspFindGroup (convertGroup group))
    package.triggerSource

def onJoinGroup (connId : Int) (package : Package Message) :
    Handler Server Self Message Unit := do
  let groupId ← parse package fun
    | .reqJoinGroup groupId => some groupId
    | _ => none
  let user ← onApp (getLoginUser connId)
  onApp (onGroup groupId (Action.modify (·.joinGroup user.userId)))
  sendBackProtocol connId .rspJoinGroup package.triggerSource

/-- The group of a request that only its managers can make. -/
def managedGroup (userId groupId : Int) : Action Fault Server SharingGroup :=
  Action.check fun server =>
    match server.groups.getGroup groupId with
    | .error fault => .error fault
    | .ok group =>
        if group.isManager userId then .ok group
        else .error ErrorCode.errGroupNotPermitNeedManager.fault

def onAssignAsManager (connId : Int) (package : Package Message) :
    Handler Server Self Message Unit := do
  let (groupId, userId) ← parse package fun
    | .reqAssignAsManager groupId userId => some (groupId, userId)
    | _ => none
  let user ← onApp (getLoginUser connId)
  let _ ← onApp (managedGroup user.userId groupId)
  onApp (onGroup groupId (SharingGroup.assignAsManager userId))
  sendBackProtocol connId .rspAssignAsManager package.triggerSource

def onAssignAsMember (connId : Int) (package : Package Message) :
    Handler Server Self Message Unit := do
  let (groupId, userId) ← parse package fun
    | .reqAssignAsMember groupId userId => some (groupId, userId)
    | _ => none
  let user ← onApp (getLoginUser connId)
  let _ ← onApp (managedGroup user.userId groupId)
  onApp (onGroup groupId (SharingGroup.assignAsMember userId))
  sendBackProtocol connId .rspAssignAsMember package.triggerSource

/-- Only a manager can kick out another user. -/
def onKickOutUser (connId : Int) (package : Package Message) :
    Handler Server Self Message Unit := do
  let (groupId, userId) ← parse package fun
    | .reqKickOutUser groupId userId => some (groupId, userId)
    | _ => none
  let user ← onApp (getLoginUser connId)
  let group ← onApp (getGroup groupId)
  Action.throwIf
    (userId ≠ user.userId ∧ group.isManager user.userId = false)
    ErrorCode.errGroupNotPermitNeedManager.fault
  onApp (onGroup groupId (SharingGroup.kickOutUser userId))
  sendBackProtocol connId .rspKickOutUser package.triggerSource

/-! ## Paths -/

def onCreatePath (connId : Int) (package : Package Message) :
    Handler Server Self Message Unit := do
  let (groupId, path) ← parse package fun
    | .reqCreatePath groupId path => some (groupId, path)
    | _ => none
  let user ← onApp (getLoginUser connId)
  let group ← onApp (managedGroup user.userId groupId)
  onApp (onFiles (group.createPath (FilePath.ofText path)))
  sendBackProtocol connId .rspCreatePath package.triggerSource

/-- The loop of `on_list_file`. -/
def listFiles (files : SharingFileManager) :
    List Int → Except Fault (List Protocol.File)
  | [] => .ok []
  | fileId :: rest =>
      match files.getFile fileId with
      | .error fault => .error fault
      | .ok file => (listFiles files rest).map (convertFile file :: ·)

def onListFile (connId : Int) (package : Package Message) :
    Handler Server Self Message Unit := do
  let (groupId, filePath) ← parse package fun
    | .reqListFile groupId filePath => some (groupId, filePath)
    | _ => none
  let user ← onApp (getLoginUser connId)
  let group ← onApp (getGroup groupId)
  Action.throwIf (group.isMember user.userId = false)
    ErrorCode.errGroupNotPermitNeedMember.fault
  let fileId ← Action.check fun frame =>
    group.getFileId frame.app.files (FilePath.ofText filePath)
  let file ← Action.check fun frame => frame.app.files.getFile fileId
  match file.body with
  | .directory fileList =>
      let files ← Action.check fun frame => listFiles frame.app.files fileList
      sendBackProtocol connId (.rspListFile files) package.triggerSource
  | _ => throw ErrorCode.errGroupNotDirectory.fault

/-! ## Put sessions -/

/-- The branch of `PutFileSessionTrans::on_init` without a session. -/
def registerPutFile (user : User) (group : SharingGroup)
    (request : ReqPutFileSession) : Action Fault Server PutFileSession := do
  let path := FilePath.ofText request.filePath
  let directory := FilePath.ofText path.directoryPath
  let directoryExists ← Action.check fun server =>
    group.existPath server.files directory
  Action.throwIf (directoryExists = false) ErrorCode.errPathNotExist.fault
  let pathExists ← Action.check fun server =>
    group.existPath server.files path
  Action.throwIf (pathExists = true) ErrorCode.errPathAlreadyExist.fault
  let storageFileId ← onFiles
    (SharingFileManager.registerFile .storageFile path.filename group.nodeId)
  let generalFileId ← onFiles
    (SharingFileManager.registerFile .generalFile path.filename
      storageFileId)
  onFiles (group.addFile directory generalFileId)
  let sessionId ← onSessions
    (FileSessionManager.registerPutSession user.userId request.groupId
      request.filePath request.maxFragment)
  Action.check fun server => server.sessions.getPutSession sessionId

/-- The session of `PutFileSessionTrans::on_init`: a live one is used again,
and must be asked for with its own number of fragments. -/
def putSession (user : User) (group : SharingGroup)
    (request : ReqPutFileSession) : Action Fault Server PutFileSession := do
  let found ← onSessions
    (FileSessionManager.findPutSessionOf user.userId request.groupId
      request.filePath)
  match found with
  | some session =>
      Action.throwIf (request.maxFragment ≠ session.maxFragment)
        ErrorCode.errFileSessionCannotChangeMaxFragment.fault
      pure session
  | none => registerPutFile user group request

/-- Parse a request for a put session. -/
def asReqPutFileSession : Message → Option ReqPutFileSession
  | .reqPutFileSession request => some request
  | _ => none

/-- The command of `RspNodePutFileSession`. -/
def rspNodePutFileSession : Int := 1030

def PutFileSessionTrans.onInit (trans : MultiplyPhaseTransaction TransSelf)
    (connId : Int) (package : Package Message) :
    Handler Server TransSelf Message Unit := do
  let user ← onApp (getLoginUser connId)
  let request ← parse package asReqPutFileSession
  let group ← onApp (managedGroup user.userId request.groupId)
  let session ← onApp (putSession user group request)
  setSelf (.putFileSession session.sessionId)
  let node ← onApp (getNode group.nodeId)
  serviceSendProtocol node.serviceId
    (.reqNodePutFileSession
      { filePath := (FilePath.ofText session.filePath).filename
        maxFragment := session.maxFragment }) trans.id
  serviceWaitNextPhase node.serviceId rspNodePutFileSession

/-- `send_back_message`. -/
def sendBackMessage (trans : MultiplyPhaseTransaction TransSelf)
    (message : Message) : Handler Server TransSelf Message Unit :=
  sendBackProtocol trans.firstConnId message trans.firstTriggerSource

/-- `remove_session` of the session manager. -/
def removeSession (sessionId : Int) : Action Fault Server Unit :=
  onSessions (Action.modify fun sessions => sessions.removeSession sessionId)

def PutFileSessionTrans.onActive
    (trans : MultiplyPhaseTransaction TransSelf) (sessionId : Int)
    (package : Package Message) : Handler Server TransSelf Message Unit := do
  let nodeResponse ← parse package Message.asRspNodePutFileSession
  match nodeResponse.error with
  | some error =>
      onApp (removeSession sessionId)
      sendBackMessage trans (.rspPutFileSession
        { error := some error, sessionId := 0, nextFragment := 0 })
  | none =>
      let session ← onApp (onSessions
        (FileSessionManager.setPutNodeSession sessionId
          nodeResponse.sessionId))
      sendBackMessage trans (.rspPutFileSession
        { error := none, sessionId := sessionId
          nextFragment := session.nextFragment })

/-! ## Put file -/

/-- Parse a request that puts a fragment. -/
def asReqPutFile : Message → Option ReqPutFile
  | .reqPutFile request => some request
  | _ => none

/-- The command of `RspPutFile`. -/
def rspPutFile : Int := 1032

def PutFileTrans.onInit (trans : MultiplyPhaseTransaction TransSelf)
    (connId : Int) (package : Package Message) :
    Handler Server TransSelf Message Unit := do
  let user ← onApp (getLoginUser connId)
  let request ← parse package asReqPutFile
  let session ← Action.check fun frame =>
    frame.app.sessions.getPutSession request.sessionId
  Action.throwIf (session.userId ≠ user.userId)
    ErrorCode.errFileSessionNotRegisterUser.fault
  Action.throwIf (request.fragmentIndex ≠ session.nextFragment)
    ErrorCode.errFileSessionInvalidFragment.fault
  onApp (onSessions (Action.modify fun sessions =>
    sessions.setSession request.sessionId
      (.put { session with nextFragment := session.nextFragment + 1 })))
  setSelf (.putFile session.sessionId)
  let group ← onApp (getGroup session.groupId)
  let node ← onApp (getNode group.nodeId)
  serviceSendProtocol node.serviceId
    (.reqPutFile { request with sessionId := session.nodeSessionId })
    trans.id
  serviceWaitNextPhase node.serviceId rspPutFile

def PutFileTrans.onActive
    (trans : MultiplyPhaseTransaction TransSelf) (sessionId : Int)
    (package : Package Message) : Handler Server TransSelf Message Unit := do
  let _ ← onApp (getLoginUser trans.firstConnId)
  let response ← parse package Message.asRspPutFile
  sendBackMessage trans (.rspPutFile { response with sessionId := sessionId })

/-! ## Get sessions and get file -/

/-- The storage file id of the general file at the path. -/
def generalFileAt (group : SharingGroup) (path : FilePath) :
    Action Fault Server Int := do
  let pathExists ← Action.check fun server =>
    group.existPath server.files path
  Action.throwIf (pathExists = false) ErrorCode.errPathNotExist.fault
  let fileId ← Action.check fun server => group.getFileId server.files path
  let sharingFile ← Action.check fun server => server.files.getFile fileId
  match sharingFile.body with
  | .generalFile storageFileId => pure storageFileId
  | _ => throw ErrorCode.errPathNotGeneralFile.fault

/-- The node of a storage file; the assertion on its type aborts. -/
def storageNodeOf (storageFileId : Int) : Action Fault Server Int := do
  let storageFile ← Action.check fun server =>
    server.files.getFile storageFileId
  match storageFile.body with
  | .storageFile nodeId _ => pure nodeId
  | _ => throw Fault.undefined

/-- The session of `GetFileSessionTrans::on_init`: a live one of the user is
used again. -/
def getSession (userId groupId : Int) (filePath : Text) :
    Action Fault Server Int := do
  let previousSession ← onSessions
    (FileSessionManager.findGetSessionOf userId groupId filePath)
  match previousSession with
  | some session => pure session.sessionId
  | none =>
      onSessions
        (FileSessionManager.registerGetSession userId groupId filePath)

/-- Parse a request for a get session. -/
def asReqGetFileSession : Message → Option (Int × Text)
  | .reqGetFileSession groupId filePath => some (groupId, filePath)
  | _ => none

/-- The command of `RspNodeGetFileSession`. -/
def rspNodeGetFileSession : Int := 1036

def GetFileSessionTrans.onInit (trans : MultiplyPhaseTransaction TransSelf)
    (connId : Int) (package : Package Message) :
    Handler Server TransSelf Message Unit := do
  let user ← onApp (getLoginUser connId)
  let (groupId, filePath) ← parse package asReqGetFileSession
  let group ← onApp (getGroup groupId)
  Action.throwIf (group.isMember user.userId = false)
    ErrorCode.errGroupNotPermitNeedMember.fault
  let path := FilePath.ofText filePath
  let storageFileId ← onApp (generalFileAt group path)
  let nodeId ← onApp (storageNodeOf storageFileId)
  let sessionId ← onApp (getSession user.userId groupId filePath)
  setSelf (.getFileSession sessionId)
  let node ← onApp (getNode nodeId)
  serviceSendProtocol node.serviceId
    (.reqNodeGetFileSession path.filename) trans.id
  serviceWaitNextPhase node.serviceId rspNodeGetFileSession

def GetFileSessionTrans.onActive
    (trans : MultiplyPhaseTransaction TransSelf) (sessionId : Int)
    (package : Package Message) : Handler Server TransSelf Message Unit := do
  let nodeResponse ← parse package Message.asRspNodeGetFileSession
  match nodeResponse.error with
  | some error =>
      onApp (removeSession sessionId)
      sendBackMessage trans (.rspGetFileSession
        { error := some error, sessionId := 0, maxFragment := 0 })
  | none =>
      onApp (onSessions
        (FileSessionManager.setGetNodeSession sessionId
          nodeResponse.sessionId))
      sendBackMessage trans (.rspGetFileSession
        { error := none, sessionId := sessionId
          maxFragment := nodeResponse.maxFragment })

/-- Parse a request that gets a fragment. -/
def asReqGetFile : Message → Option ReqGetFile
  | .reqGetFile request => some request
  | _ => none

/-- The command of `RspGetFile`. -/
def rspGetFile : Int := 1038

def GetFileTrans.onInit (trans : MultiplyPhaseTransaction TransSelf)
    (connId : Int) (package : Package Message) :
    Handler Server TransSelf Message Unit := do
  let user ← onApp (getLoginUser connId)
  let request ← parse package asReqGetFile
  let session ← Action.check fun frame =>
    frame.app.sessions.getGetSession request.sessionId
  Action.throwIf (session.userId ≠ user.userId)
    ErrorCode.errFileSessionNotRegisterUser.fault
  let group ← onApp (getGroup session.groupId)
  let storageFileId ← onApp
    (generalFileAt group (FilePath.ofText session.filePath))
  setSelf (.getFile session.sessionId)
  let nodeId ← onApp (storageNodeOf storageFileId)
  let node ← onApp (getNode nodeId)
  serviceSendProtocol node.serviceId
    (.reqGetFile
      { sessionId := session.nodeSessionId
        fragmentIndex := request.fragmentIndex }) trans.id
  serviceWaitNextPhase node.serviceId rspGetFile

def GetFileTrans.onActive
    (trans : MultiplyPhaseTransaction TransSelf) (sessionId : Int)
    (package : Package Message) : Handler Server TransSelf Message Unit := do
  let _ ← onApp (getLoginUser trans.firstConnId)
  let response ← parse package Message.asRspGetFile
  sendBackMessage trans (.rspGetFile { response with sessionId := sessionId })

/-! ## Remove path -/

/-- `RemovePathTrans::on_init`; the success is not answered. -/
def RemovePathTrans.onInit (connId : Int) (package : Package Message) :
    Handler Server TransSelf Message Unit := do
  let user ← onApp (getLoginUser connId)
  let (groupId, path) ← parse package fun
    | .reqRemovePath groupId path _ => some (groupId, path)
    | _ => none
  let group ← onApp (managedGroup user.userId groupId)
  onApp (onFiles (group.removePath (FilePath.ofText path)))

end Handlers

/-! ## The program -/

/-- `on_init` of the class of the transaction. -/
def onInit (trans : MultiplyPhaseTransaction TransSelf)
    (connId : Int) (package : Package Message) :
    Handler Server TransSelf Message Unit :=
  match trans.self with
  | .putFileSession _ => PutFileSessionTrans.onInit trans connId package
  | .putFile _ => PutFileTrans.onInit trans connId package
  | .getFileSession _ => GetFileSessionTrans.onInit trans connId package
  | .getFile _ => GetFileTrans.onInit trans connId package
  | .removePath => RemovePathTrans.onInit connId package

/-- `on_active` of the class of the transaction; `RemovePathTrans::on_active`
is empty. -/
def onActive (trans : MultiplyPhaseTransaction TransSelf)
    (_connId : Int) (package : Package Message) :
    Handler Server TransSelf Message Unit :=
  match trans.self with
  | .putFileSession sessionId =>
      PutFileSessionTrans.onActive trans sessionId package
  | .putFile sessionId => PutFileTrans.onActive trans sessionId package
  | .getFileSession sessionId =>
      GetFileSessionTrans.onActive trans sessionId package
  | .getFile sessionId => GetFileTrans.onActive trans sessionId package
  | .removePath => pure ()

/-- `MultiplyPhaseTransaction::on_error`. -/
def baseOnError (messageSize : Message → Nat)
    (trans : MultiplyPhaseTransaction TransSelf)
    (errorInfo : Foundation.ErrorInfo) :
    Handler Server TransSelf Message Unit :=
  Frame.onTransactionError (protocol messageSize) trans.firstConnId
    trans.firstTriggerSource errorInfo

/-- `on_error` of the class of the transaction: the two session transactions
remove their session first. -/
def onError (messageSize : Message → Nat)
    (trans : MultiplyPhaseTransaction TransSelf)
    (_connId : Int) (errorInfo : Foundation.ErrorInfo) :
    Handler Server TransSelf Message Unit :=
  match trans.self with
  | .putFileSession sessionId | .getFileSession sessionId => do
      Frame.onApp (removeSession sessionId)
      baseOnError messageSize trans errorInfo
  | _ => baseOnError messageSize trans errorInfo

/-- The registrations of `main`. -/
def findTransaction (command : Int) :
    Option (Transaction Server TransSelf Message) :=
  match command with
  | 1001 => some (.onePhase onPing)
  | 1003 => some (.onePhase fun _ => onRegisterUser)
  | 1005 => some (.onePhase fun _ => onLoginUser)
  | 1007 => some (.onePhase fun _ => onRemoveUser)
  | 1009 => some (.onePhase fun _ => onFindUser)
  | 1011 => some (.onePhase fun _ => onRegisterGroup)
  | 1015 => some (.onePhase fun _ => onFindGroup)
  | 1017 => some (.onePhase fun _ => onJoinGroup)
  | 1019 => some (.onePhase fun _ => onAssignAsManager)
  | 1021 => some (.onePhase fun _ => onAssignAsMember)
  | 1023 => some (.onePhase fun _ => onKickOutUser)
  | 1039 => some (.onePhase fun _ => onCreatePath)
  | 1025 => some (.onePhase fun _ => onListFile)
  | 1027 => some (.multiplyPhase (.putFileSession 0))
  | 1031 => some (.multiplyPhase (.putFile 0))
  | 1033 => some (.multiplyPhase (.getFileSession 0))
  | 1037 => some (.multiplyPhase (.getFile 0))
  | 1041 => some (.multiplyPhase .removePath)
  | _ => none

/-- What the server does besides answering packages: the steps of `main`, the
parts of node registrations that run on the worker, the kicks of
`kick_out_offline_users`, and the timer that writes the data file. -/
inductive ServerCall
  | registerRootUser (userName password : Text)
  | registerRootGroup (userId : Int) (groupName : Text)
  | registerNode (ip : Text) (port serviceId : Int)
  | setService (nodeId serviceId : Int)
  | kickOutUser (connId : Int)
  | serialize
  deriving DecidableEq

def internal : ServerCall → Action Fault Server Unit
  | .registerRootUser userName password => do
      let _ ← Server.onUsers
        (UserManager.registerUser userName password true)
  | .registerRootGroup userId groupName => do
      let _ ← Server.registerGroup userId groupName
  | .registerNode ip port serviceId =>
      Server.onNodes (Action.modify fun nodes =>
        nodes.registerNode ip port serviceId)
  | .setService nodeId serviceId =>
      Server.onNodes (StorageNodeManager.setService nodeId serviceId)
  | .kickOutUser connId => Server.onUsers (UserManager.kickOutUser connId)
  | .serialize => Action.modify Server.serialize

def program (messageSize : Message → Nat) :
    Program Server TransSelf Message ServerCall where
  protocol := protocol messageSize
  findTransaction := findTransaction
  onInit := onInit
  onActive := onActive
  onError := onError messageSize
  internal := internal

section Program

variable (messageSize : Message → Nat)

@[simp] theorem program_onInit :
    (program messageSize).onInit = onInit := rfl

@[simp] theorem program_onActive :
    (program messageSize).onActive = onActive := rfl

@[simp] theorem program_onError :
    (program messageSize).onError = onError messageSize := rfl

end Program

/-- Steps of the worker, and restarts of the process. -/
inductive ServerEvent
  | worker (event : Worker.Event Message ServerCall)
  | restart (rest : Int → UninitializedUser)

abbrev ServerWorker := Worker Server TransSelf Message

/-- The resource server from the first start-up on.  The steps of `main` are
internal calls, in any order. -/
def serverMachine (messageSize : Message → Nat) :
    Machine ServerWorker ServerEvent where
  start := Worker.init Server.init
  step := fun worker event =>
    match event with
    | .worker event => Worker.step (program messageSize) worker event
    | .restart rest => some (Worker.init (worker.app.restart rest))

/-! ## A first run -/

/-- A request of a client on a connection. -/
def clientRequest (connId : Int) (message : Message) : ServerEvent :=
  .worker (.receive 0 connId 0
    { command := message.command, selfPackageId := 1
      triggerPackageId := 0, content := some message })

/-- The steps of `main` with one storage node on service 2, and the login of
the root user on connection 5. -/
def openingEvents : List ServerEvent :=
  [.worker (.internal (.registerRootUser ['r'] ['p'])),
    .worker (.internal (.registerNode ['n'] 1 2)),
    .worker (.internal (.registerRootGroup 1 ['g'])),
    clientRequest 5 (.reqLoginUser 1 ['p'])]

/-- The server after these steps; messages take no space here. -/
def openedWorker : ServerWorker :=
  (((serverMachine fun _ => 0).run (serverMachine fun _ => 0).start
    openingEvents).get (by decide +kernel))

theorem openedWorker_reaches :
    (serverMachine fun _ => 0).Reaches openingEvents openedWorker :=
  (Option.some_get _).symm

end ResourceServer
end Spaceless
