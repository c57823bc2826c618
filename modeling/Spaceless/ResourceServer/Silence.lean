import Spaceless.Protocol.Size
import Spaceless.ResourceServer.Answer

/-!
# Requests that are never answered

Every exit of a handler answers, but for two kinds of requests: the removal of
a path that succeeds, and a response whose size depends on the data and that
`send_protocol` drops because it is too large.
-/

namespace Spaceless
namespace ResourceServer

open Logic Foundation Protocol Frame SharingFileManager

/-! ## Responses that depend on the data -/

/-- The response to a request that reports users, groups or files. -/
inductive Reports (server : Server) (connId : Int)
    (package : Package Message) : Message → Prop
  | registerUser {userName password : Text}
      (command : package.command = 1003)
      (content : package.content =
        some (.reqRegisterUser userName password))
      (newName : server.users.findUserByName userName = none)
      (fresh : server.users.findUser server.users.nextId = none) :
      Reports server connId package (.rspRegisterUser
        { userId := server.users.nextId, userName := userName
          groupList := [] })
  | findUser {userId : Int} {userName : Text} {user target : User}
      (command : package.command = 1009)
      (content : package.content = some (.reqFindUser userId userName))
      (login : server.users.findLoginUser connId = some user)
      (found : (if userId ≠ 0 then server.users.findUser userId
        else server.users.findUserByName userName) = some target) :
      Reports server connId package (.rspFindUser (convertUser target))
  | findGroup {groupId : Int} {groupName : Text} {user : User}
      {group : SharingGroup} (command : package.command = 1015)
      (content : package.content = some (.reqFindGroup groupId groupName))
      (login : server.users.findLoginUser connId = some user)
      (found : (if groupId ≠ 0 then server.groups.findGroup groupId
        else server.groups.findGroupByName groupName) = some group) :
      Reports server connId package (.rspFindGroup (convertGroup group))
  | listFile {groupId dirId : Int} {path : Text} {user : User}
      {group : SharingGroup} {fileList : List Int}
      {files : List SharingFile} (command : package.command = 1025)
      (content : package.content = some (.reqListFile groupId path))
      (acts : Acts server connId groupId user group)
      (member : group.isMember user.userId = true)
      (leads : group.getFileId server.files (FilePath.ofText path) =
        .ok dirId)
      (listed : server.files.observe SharingFile.list dirId = some fileList)
      (found : fileList.map server.files.findFile = files.map some) :
      Reports server connId package (.rspListFile (files.map convertFile))

theorem Reports.reports {server : Server} {connId : Int}
    {package : Package Message} {message : Message}
    (known : Reports server connId package message) :
    reports package.command = true := by
  unfold ResourceServer.reports
  cases known with
  | registerUser command => simp [command]
  | findUser command => simp [command]
  | findGroup command => simp [command]
  | listFile command => simp [command]

theorem findTransaction_of_reports {command : Int}
    (reported : reports command = true) : findTransaction command ≠ none := by
  simp only [reports, Bool.or_eq_true, decide_eq_true_eq] at reported
  rcases reported with ((rfl | rfl) | rfl) | rfl <;> simp [findTransaction]

section OnePhase

variable {server : Server} {connId : Int} {package : Package Message}

/-- The handler answers as described, or fails where there is no response. -/
def Exact (server : Server) (connId : Int) (package : Package Message)
    (handler : Handler Server Unit Message Unit) : Prop :=
  Action.Ensures handler (Worker.startFrame server ())
    (fun _ frame => ∃ message,
      frame.sends = [.reply connId message package.triggerSource] ∧
      ∀ other, Reports server connId package other ↔ other = message)
    (fun _ _ => ∀ other, ¬Reports server connId package other)

/-- It is enough that what is sent is the response, and that the response is
sent. -/
theorem exact_of {handler : Handler Server Unit Message Unit}
    (sound : Action.Ensures handler (Worker.startFrame server ())
      (fun _ frame => ∃ message,
        frame.sends = [.reply connId message package.triggerSource] ∧
        Reports server connId package message) (fun _ _ => True))
    (complete : ∀ message, Reports server connId package message →
      ∃ frame, handler (Worker.startFrame server ()) = (.ok (), frame) ∧
        frame.sends = [.reply connId message package.triggerSource]) :
    Exact server connId package handler := by
  apply (Action.ensures_self handler _).mono
  · intro value frame ran
    obtain ⟨message, sent, known⟩ := sound.of_ok ran
    refine ⟨message, sent, fun other => ⟨fun reported => ?_, ?_⟩⟩
    · obtain ⟨again, ranAgain, sentAgain⟩ := complete other reported
      rw [ran] at ranAgain
      cases ranAgain
      rw [sent] at sentAgain
      cases sentAgain
      rfl
    · rintro rfl
      exact known
  · intro fault frame ran other reported
    obtain ⟨again, ranAgain, -⟩ := complete other reported
    rw [ran] at ranAgain
    cases ranAgain

theorem onRegisterUser_exact (command : package.command = 1003) :
    Exact server connId package (onRegisterUser connId package) := by
  apply exact_of
  · simp only [onRegisterUser, Action.ensures_bind, parse,
      Action.ensures_check, ensures_onApp, Server.onUsers,
      Action.ensures_zoom, ensures_sendBackProtocol]
    refine ⟨?_, fun _ _ => trivial⟩
    rintro ⟨userName, password⟩ parsed
    obtain ⟨message, content, selected⟩ := content_of_parse parsed
    apply (Action.ensures_self _ _).mono ?_ fun _ _ _ => trivial
    intro user users ran
    cases message <;> cases selected
    unfold UserManager.registerUser at ran
    split at ran
    · cases ran
    · rename_i newName
      dsimp only at ran
      split at ran
      · cases ran
      · rename_i fresh
        cases ran
        exact ⟨_, rfl, .registerUser command content newName fresh⟩
  · intro message reported
    cases reported with
    | registerUser _ content newName fresh =>
        have free : server.users.userList[server.users.nextId]? = none :=
          fresh
        simp [onRegisterUser, parse, Package.parseToProtocol, content,
          Action.bind_apply, onApp_apply, Server.onUsers, Action.zoom_apply,
          UserManager.registerUser, newName, free, User.init, convertUser,
          sendBackProtocol, sendProtocol, Worker.startFrame, Send.reply]
    | findUser other => simp [command] at other
    | findGroup other => simp [command] at other
    | listFile other => simp [command] at other

theorem onFindUser_exact (command : package.command = 1009) :
    Exact server connId package (onFindUser connId package) := by
  apply exact_of
  · simp only [onFindUser, Action.ensures_bind, parse,
      Action.ensures_check, ensures_onApp, Server.getLoginUser,
      ensures_sendBackProtocol, Worker.startFrame]
    refine ⟨?_, fun _ _ => trivial⟩
    rintro ⟨userId, userName⟩ parsed
    obtain ⟨message, content, selected⟩ := content_of_parse parsed
    cases message <;> cases selected
    refine ⟨fun user login => ⟨fun target got => ?_, fun _ _ => trivial⟩,
      fun _ _ => trivial⟩
    split at got
    · rename_i found
      cases got
      exact ⟨_, rfl, .findUser command content
        (findLoginUser_of_getLoginUser login) found⟩
    · cases got
  · intro message reported
    cases reported with
    | registerUser other => simp [command] at other
    | findUser _ content login found =>
        simp only [ne_eq, ite_not] at found
        simp [onFindUser, parse, Package.parseToProtocol, content,
          Action.bind_apply, onApp_apply, Server.getLoginUser,
          getLoginUser_of_findLoginUser login, found, sendBackProtocol,
          sendProtocol, Worker.startFrame, Send.reply]
    | findGroup other => simp [command] at other
    | listFile other => simp [command] at other

theorem onFindGroup_exact (command : package.command = 1015) :
    Exact server connId package (onFindGroup connId package) := by
  apply exact_of
  · simp only [onFindGroup, Action.ensures_bind, parse,
      Action.ensures_check, ensures_onApp, Server.getLoginUser,
      ensures_sendBackProtocol, Worker.startFrame]
    refine ⟨?_, fun _ _ => trivial⟩
    rintro ⟨groupId, groupName⟩ parsed
    obtain ⟨message, content, selected⟩ := content_of_parse parsed
    cases message <;> cases selected
    refine ⟨fun user login => ⟨fun group got => ?_, fun _ _ => trivial⟩,
      fun _ _ => trivial⟩
    split at got
    · rename_i found
      cases got
      exact ⟨_, rfl, .findGroup command content
        (findLoginUser_of_getLoginUser login) found⟩
    · cases got
  · intro message reported
    cases reported with
    | registerUser other => simp [command] at other
    | findUser other => simp [command] at other
    | findGroup _ content login found =>
        simp only [ne_eq, ite_not] at found
        simp [onFindGroup, parse, Package.parseToProtocol, content,
          Action.bind_apply, onApp_apply, Server.getLoginUser,
          getLoginUser_of_findLoginUser login, found, sendBackProtocol,
          sendProtocol, Worker.startFrame, Send.reply]
    | listFile other => simp [command] at other

theorem listFiles_eq_ok {files : SharingFileManager} {fileList : List Int}
    {entries : List Protocol.File} :
    listFiles files fileList = .ok entries ↔
      ∃ found : List SharingFile,
        fileList.map files.findFile = found.map some ∧
        entries = found.map convertFile := by
  induction fileList generalizing entries with
  | nil =>
      constructor
      · intro listed
        cases listed
        exact ⟨[], rfl, rfl⟩
      · rintro ⟨found, same, rfl⟩
        rw [List.map_nil, eq_comm, List.map_eq_nil_iff] at same
        rw [same]
        rfl
  | cons fileId rest inductionHypothesis =>
      constructor
      · intro listed
        unfold listFiles at listed
        split at listed
        · cases listed
        · rename_i file got
          cases others : listFiles files rest with
          | error fault =>
              rw [others] at listed
              cases listed
          | ok more =>
              rw [others] at listed
              cases listed
              obtain ⟨found, same, rfl⟩ := inductionHypothesis.mp others
              refine ⟨file :: found, ?_, rfl⟩
              rw [List.map_cons, List.map_cons, same, getFile_eq_ok.mp got]
      · rintro ⟨found, same, rfl⟩
        cases found with
        | nil => cases same
        | cons file more =>
            obtain ⟨first, others⟩ := List.cons.inj same
            have listed := inductionHypothesis.mpr ⟨more, others, rfl⟩
            rw [listFiles, getFile_eq_ok.mpr first, listed]
            rfl

theorem onListFile_exact (command : package.command = 1025) :
    Exact server connId package (onListFile connId package) := by
  apply exact_of
  · simp only [onListFile, Action.ensures_bind, parse, Action.ensures_check,
      ensures_onApp, Server.getLoginUser, Server.getGroup,
      Action.ensures_throwIf, Worker.startFrame]
    refine ⟨?_, fun _ _ => trivial⟩
    rintro ⟨groupId, path⟩ parsed
    obtain ⟨message, content, selected⟩ := content_of_parse parsed
    cases message <;> cases selected
    refine ⟨fun user login => ⟨fun group found => ⟨fun _ => trivial,
      fun member => ⟨fun dirId leads => ⟨fun file got => ?_,
        fun _ _ => trivial⟩, fun _ _ => trivial⟩⟩, fun _ _ => trivial⟩,
      fun _ _ => trivial⟩
    split
    · rename_i fileList body
      simp only [Action.ensures_bind, Action.ensures_check,
        ensures_sendBackProtocol]
      refine ⟨fun entries listed => ?_, fun _ _ => trivial⟩
      obtain ⟨files, same, rfl⟩ := listFiles_eq_ok.mp listed
      have lists : server.files.observe SharingFile.list dirId =
          some fileList := by
        rw [observe_of_findFile (getFile_eq_ok.mp got), SharingFile.list,
          body]
      exact ⟨_, rfl, .listFile command content
        ⟨findLoginUser_of_getLoginUser login, findGroup_of_getGroup found⟩
        (by simpa using member) leads lists same⟩
    · exact Action.ensures_throw.mpr trivial
  · intro message reported
    cases reported with
    | registerUser other => simp [command] at other
    | findUser other => simp [command] at other
    | findGroup other => simp [command] at other
    | @listFile _ dirId _ _ _ fileList files _ content acts member leads
        listed found =>
        obtain ⟨fileName, stored⟩ := observe_list_eq_some.mp listed
        simp [onListFile, parse, Package.parseToProtocol, content,
          Action.bind_apply, onApp_apply, Server.getLoginUser,
          Server.getGroup, getLoginUser_of_findLoginUser acts.login,
          getGroup_of_findGroup acts.found, Action.throwIf, member, leads,
          getFile_eq_ok.mpr stored, listFiles_eq_ok.mpr ⟨files, found, rfl⟩,
          sendBackProtocol, sendProtocol, Worker.startFrame, Send.reply]

theorem onePhase_exact {handler : Int → Int → Package Message →
      Handler Server Unit Message Unit}
    (registered : findTransaction package.command =
      some (.onePhase handler))
    (reported : reports package.command = true) (now : Int) :
    Exact server connId package (handler now connId package) := by
  unfold findTransaction at registered
  split at registered <;> rename_i command <;> cases registered
  · simp [reports, command] at reported
  · exact onRegisterUser_exact command
  · simp [reports, command] at reported
  · simp [reports, command] at reported
  · exact onFindUser_exact command
  · simp [reports, command] at reported
  · exact onFindGroup_exact command
  · simp [reports, command] at reported
  · simp [reports, command] at reported
  · simp [reports, command] at reported
  · simp [reports, command] at reported
  · simp [reports, command] at reported
  · exact onListFile_exact command

end OnePhase

/-! ## Transactions -/

section Transactions

variable {server : Server} {connId : Int} {package : Package Message}

/-- The request is one of a manager of its group, and its path leads to an
entry that is removed. -/
def RemovalAsked (server : Server) (connId : Int)
    (package : Package Message) : Prop :=
  ∃ groupId path force user group parentId entry fileList,
    package.content = some (.reqRemovePath groupId path force) ∧
    Manages server connId groupId user group ∧
    Removes server.files group (FilePath.ofText path) parentId entry fileList

theorem removePath_onInit_ok {roots : Int → Prop}
    (shape : Shape roots server.files)
    (removes : RemovalAsked server connId package) (self : TransSelf) :
    (RemovePathTrans.onInit connId package
      (Worker.startFrame server self)).1 = .ok () := by
  obtain ⟨groupId, path, force, user, group, parentId, entry, fileList,
    content, manages, removes⟩ := removes
  simp [RemovePathTrans.onInit, parse, Package.parseToProtocol, content,
    Action.bind_apply, onApp_apply, Server.getLoginUser, managedGroup,
    getLoginUser_of_findLoginUser manages.login,
    getGroup_of_findGroup manages.found, manages.manager, Server.onFiles,
    Action.zoom_apply, shape.removePath_eq removes, Worker.startFrame]

/-- `RemovePathTrans::on_init` returns exactly when it removes an entry. -/
theorem removePath_onInit_exact {roots : Int → Prop}
    (shape : Shape roots server.files) (self : TransSelf) :
    Action.Ensures (RemovePathTrans.onInit connId package)
      (Worker.startFrame server self)
      (fun _ _ => RemovalAsked server connId package)
      (fun _ _ => ¬RemovalAsked server connId package) := by
  have returns (removes : RemovalAsked server connId package) :=
    removePath_onInit_ok shape removes self
  have sound : Action.Ensures (RemovePathTrans.onInit connId package)
      (Worker.startFrame server self)
      (fun _ _ => RemovalAsked server connId package) (fun _ _ => True) := by
    simp only [RemovePathTrans.onInit, Action.ensures_bind, parse,
      Action.ensures_check, ensures_onApp, Server.getLoginUser, managedGroup,
      Server.onFiles, Action.ensures_zoom, Worker.startFrame]
    refine ⟨fun user login => ⟨?_, fun _ _ => trivial⟩, fun _ _ => trivial⟩
    rintro ⟨groupId, path⟩ parsed
    obtain ⟨message, content, selected⟩ := content_of_parse parsed
    cases message <;> cases selected
    refine ⟨fun group managed => ?_, fun _ _ => trivial⟩
    obtain ⟨found, manager⟩ := found_of_managed managed
    apply (Action.ensures_self _ _).mono ?_ fun _ _ _ => trivial
    intro value later ran
    obtain ⟨parentId, entry, fileList, removes⟩ := removes_of_ok ran
    exact ⟨groupId, path, _, user, group, parentId, entry, fileList, content,
      ⟨⟨findLoginUser_of_getLoginUser login, found⟩, manager⟩, removes⟩
  apply (Action.ensures_self _ _).mono
  · exact fun value later ran => sound.of_ok ran
  · intro fault later ran removes
    have ended := returns removes
    rw [ran] at ended
    cases ended

/-- The response with the fragment of a storage node. -/
inductive PassesOn (server : Server)
    (trans : MultiplyPhaseTransaction TransSelf) (package : Package Message) :
    Message → Prop
  | fragment {sessionId : Int} {user : User} {response : RspGetFile}
      (self : trans.self = .getFile sessionId)
      (login : server.users.findLoginUser trans.firstConnId = some user)
      (content : package.content.bind Message.asRspGetFile = some response) :
      PassesOn server trans package
        (.rspGetFile { response with sessionId := sessionId })

theorem passesOn_clearWaitingState
    {waiting : MultiplyPhaseTransaction TransSelf} {message : Message} :
    PassesOn server waiting.clearWaitingState package message ↔
      PassesOn server waiting package message := by
  constructor
  · rintro ⟨self, login, content⟩
    exact .fragment self login content
  · rintro ⟨self, login, content⟩
    exact .fragment self login content

theorem onActive_getFile_exact
    (trans : MultiplyPhaseTransaction TransSelf) {sessionId : Int}
    (self : trans.self = .getFile sessionId) :
    Action.Ensures (onActive trans connId package)
      (Worker.startFrame server trans.self)
      (fun _ frame => ∃ message, frame.sends =
          [.reply trans.firstConnId message trans.firstTriggerSource] ∧
        ∀ other, PassesOn server trans package other ↔ other = message)
      (fun _ _ => ∀ other, ¬PassesOn server trans package other) := by
  simp only [onActive, self, GetFileTrans.onActive, Action.ensures_bind,
    parse, Action.ensures_check, ensures_onApp, Server.getLoginUser,
    sendBackMessage, ensures_sendBackProtocol, Worker.startFrame]
  refine ⟨fun user login => ⟨fun response parsed => ?_, ?_⟩, ?_⟩
  · have content : package.content.bind Message.asRspGetFile =
        some response := by
      obtain ⟨message, present, selected⟩ := content_of_parse parsed
      rw [present]
      exact selected
    refine ⟨_, rfl, fun other => ⟨fun passes => ?_, ?_⟩⟩
    · obtain ⟨sameSelf, otherLogin, sameContent⟩ := passes
      rw [self] at sameSelf
      cases sameSelf
      rw [content] at sameContent
      cases sameContent
      rfl
    · rintro rfl
      exact .fragment self (findLoginUser_of_getLoginUser login) content
  · intro fault failed other passes
    obtain ⟨-, -, content⟩ := passes
    simp [Package.parseToProtocol, content] at failed
  · intro fault failed other passes
    obtain ⟨-, login, -⟩ := passes
    rw [getLoginUser_of_findLoginUser login] at failed
    cases failed

end Transactions

/-! ## Steps that leave a request unanswered -/

/-- The step finishes a request without an answer. -/
inductive Silent (messageSize : Message → Nat) (worker : ServerWorker) :
    ServerEvent → Prop
  | dropped {now connId serviceId : Int} {package : Package Message}
      {message : Message}
      (starts : worker.waitingTransaction package = none)
      (reported : Reports worker.app connId package message)
      (large : maxContentLen < messageSize message) :
      Silent messageSize worker
        (.worker (.receive now connId serviceId package))
  | removed {now connId serviceId : Int} {package : Package Message}
      (starts : worker.waitingTransaction package = none)
      (command : package.command = 1041)
      (removes : RemovalAsked worker.app connId package) :
      Silent messageSize worker
        (.worker (.receive now connId serviceId package))
  | fragment {now connId serviceId : Int} {package : Package Message}
      {waiting : MultiplyPhaseTransaction TransSelf} {message : Message}
      (answers : worker.waitingTransaction package = some waiting)
      (fits : waiting.fits connId serviceId package.command = true)
      (passes : PassesOn worker.app waiting package message)
      (large : maxContentLen < messageSize message) :
      Silent messageSize worker
        (.worker (.receive now connId serviceId package))
  /-- `RemovePathTrans::on_active` is empty; it is never waited for. -/
  | activated {now connId serviceId : Int} {package : Package Message}
      {waiting : MultiplyPhaseTransaction TransSelf}
      (answers : worker.waitingTransaction package = some waiting)
      (fits : waiting.fits connId serviceId package.command = true)
      (self : waiting.self = .removePath) :
      Silent messageSize worker
        (.worker (.receive now connId serviceId package))

section Step

variable {messageSize : Message → Nat} {worker later : ServerWorker}
  {now connId serviceId : Int} {package : Package Message}

/-- Which packages that start something end in silence. -/
theorem silent_of_starts (starts : worker.waitingTransaction package = none) :
    Silent messageSize worker
        (.worker (.receive now connId serviceId package)) ↔
      (∃ message, Reports worker.app connId package message ∧
        maxContentLen < messageSize message) ∨
      package.command = 1041 ∧ RemovalAsked worker.app connId package := by
  constructor
  · intro silent
    cases silent with
    | dropped _ reported large => exact Or.inl ⟨_, reported, large⟩
    | removed _ command removes => exact Or.inr ⟨command, removes⟩
    | fragment answers fits passes large =>
        rw [starts] at answers
        cases answers
    | activated answers fits self =>
        rw [starts] at answers
        cases answers
  · rintro (⟨message, reported, large⟩ | ⟨command, removes⟩)
    · exact .dropped starts reported large
    · exact .removed starts command removes

/-- Which answers to a waiting transaction end it in silence. -/
theorem silent_of_answers {waiting : MultiplyPhaseTransaction TransSelf}
    (answers : worker.waitingTransaction package = some waiting) :
    Silent messageSize worker
        (.worker (.receive now connId serviceId package)) ↔
      waiting.fits connId serviceId package.command = true ∧
        (waiting.self = .removePath ∨
          ∃ message, PassesOn worker.app waiting package message ∧
            maxContentLen < messageSize message) := by
  constructor
  · intro silent
    cases silent with
    | dropped starts reported large =>
        rw [answers] at starts
        cases starts
    | removed starts command removes =>
        rw [answers] at starts
        cases starts
    | fragment again fits passes large =>
        rw [answers] at again
        cases again
        exact ⟨fits, Or.inr ⟨_, passes, large⟩⟩
    | activated again fits self =>
        rw [answers] at again
        cases again
        exact ⟨fits, Or.inl self⟩
  · rintro ⟨fits, self | ⟨message, passes, large⟩⟩
    · exact .activated answers fits self
    · exact .fragment answers fits passes large

theorem silent_onePhase {handler : Int → Int → Package Message →
      Handler Server Unit Message Unit}
    (starts : worker.waitingTransaction package = none)
    (registered : findTransaction package.command =
      some (.onePhase handler)) :
    Silent messageSize worker
        (.worker (.receive now connId serviceId package)) ↔
      ∃ message, Reports worker.app connId package message ∧
        maxContentLen < messageSize message := by
  rw [silent_of_starts starts, or_iff_left]
  rintro ⟨command, -⟩
  rw [command] at registered
  cases registered

theorem silent_starts {factory : TransSelf}
    (starts : worker.waitingTransaction package = none)
    (registered : findTransaction package.command =
      some (.multiplyPhase factory)) :
    Silent messageSize worker
        (.worker (.receive now connId serviceId package)) ↔
      factory = .removePath ∧ RemovalAsked worker.app connId package := by
  rw [silent_of_starts starts]
  constructor
  · rintro (⟨message, reported, -⟩ | ⟨command, removes⟩)
    · have known := reported.reports
      rw [command_of_findTransaction registered] at known
      cases factory <;> cases known
    · rw [command] at registered
      cases registered
      exact ⟨rfl, removes⟩
  · rintro ⟨rfl, removes⟩
    exact Or.inr ⟨command_of_findTransaction registered, removes⟩

theorem not_silent_unknown
    (starts : worker.waitingTransaction package = none)
    (unregistered : findTransaction package.command = none) :
    ¬Silent messageSize worker
      (.worker (.receive now connId serviceId package)) := by
  rw [silent_of_starts starts]
  rintro (⟨message, reported, -⟩ | ⟨command, -⟩)
  · exact findTransaction_of_reports reported.reports unregistered
  · rw [command] at unregistered
    cases unregistered

theorem not_silent_foreign {waiting : MultiplyPhaseTransaction TransSelf}
    (answers : worker.waitingTransaction package = some waiting)
    (mismatch : waiting.fits connId serviceId package.command = false) :
    ¬Silent messageSize worker
      (.worker (.receive now connId serviceId package)) := by
  rw [silent_of_answers answers, mismatch]
  rintro ⟨fits, -⟩
  cases fits

section Finish

variable (numeric : ∀ message, isNumeric message = true →
  messageSize message ≤ maxContentLen)

include numeric

theorem onePhase_answersFinished
    (turned : Worker.Turned (program messageSize) worker
      (.receive now connId serviceId package) later)
    {handler : Int → Int → Package Message →
      Handler Server Unit Message Unit} {called : ServerWorker}
    (starts : worker.waitingTransaction package = none)
    (registered : findTransaction package.command =
      some (.onePhase handler))
    (call : Worker.callOnePhase (program messageSize) connId package
      (Worker.registerPackage package worker) (handler now connId package) =
        some called) :
    Worker.AnswersFinished (program messageSize) worker later
        (.receive now connId serviceId package) ↔
      ¬Silent messageSize worker
        (.worker (.receive now connId serviceId package)) := by
  have turn : (worker.turn (program messageSize)
      (.receive now connId serviceId package)).sends =
      Worker.onePhaseSends (protocol messageSize) connId worker.app package
        (handler now connId package) := by
    simp only [Worker.turn, Worker.receiveTurn, starts]
    have same : (program messageSize).findTransaction package.command =
      some (.onePhase handler) := registered
    rw [same]
    rfl
  rw [Worker.answersFinished_onePhase starts registered,
    silent_onePhase starts registered]
  have last := onePhase_callsLast now connId package registered
    (Worker.startFrame worker.app ())
  have unreported (other : reports package.command ≠ true) :
      ¬∃ message, Reports worker.app connId package message ∧
        maxContentLen < messageSize message := by
    rintro ⟨message, reported, -⟩
    exact other reported.reports
  rcases Worker.called_onePhase_cases call with
    ⟨frame, ran⟩ | ⟨thrown, errorInfo, frame, ran, info⟩
  · have ran : handler now connId package (Worker.startFrame worker.app ()) =
        (.ok (), frame) := ran
    simp only [Worker.onePhaseSends, ran] at turn
    by_cases reported : reports package.command = true
    · obtain ⟨message, sent, unique⟩ :=
        (onePhase_exact registered reported now).of_ok ran
      rw [sent] at turn
      apply (turned.answered_reply turn).trans
      constructor
      · rintro small ⟨other, known, large⟩
        rw [(unique other).mp known] at large
        exact absurd small (Nat.not_le.mpr large)
      · intro quiet
        apply Nat.le_of_not_lt
        exact fun large => quiet ⟨message, (unique message).mpr rfl, large⟩
    · obtain ⟨sends, waits, ⟨message, small, rfl⟩, sent, -⟩ := last.of_ok ran
      rw [sent] at turn
      have fits := turned.answered_reply turn
      refine iff_of_true (fits.mpr ?_) (unreported reported)
      exact numeric message (small (Bool.eq_false_iff.mpr reported))
  · have ran : handler now connId package (Worker.startFrame worker.app ()) =
        (.error (.exception thrown), frame) := ran
    obtain ⟨sent, -⟩ := last.of_error ran
    simp only [Worker.onePhaseSends, ran, info, sent] at turn
    have answer : (worker.turn (program messageSize)
        (.receive now connId serviceId package)).sends =
        [.reply connId ((protocol messageSize).rspError errorInfo)
          package.triggerSource] := turn
    have fits := turned.answered_reply answer
    apply iff_of_true (fits.mpr (numeric _ rfl))
    by_cases reported : reports package.command = true
    · rintro ⟨message, known, -⟩
      exact (onePhase_exact registered reported now).of_error ran message
        known
    · exact unreported reported

theorem error_answered {trans : MultiplyPhaseTransaction TransSelf}
    {event : Worker.Event Message ServerCall}
    (turned : Worker.Turned (program messageSize) worker event later)
    {errorInfo : Foundation.ErrorInfo}
    (sends : (worker.turn (program messageSize) event).sends =
      [.reply trans.firstConnId ((protocol messageSize).rspError errorInfo)
        trans.firstTriggerSource]) :
    Worker.Answered worker later (Worker.target trans) :=
  (turned.answered_reply sends).mpr (numeric _ rfl)

/-- A transaction that ends with an exception is answered by `on_error`. -/
theorem exception_answered {trans : MultiplyPhaseTransaction TransSelf}
    {event : Worker.Event Message ServerCall}
    (turned : Worker.Turned (program messageSize) worker event later)
    {handler : Handler Server TransSelf Message Unit}
    (turn : worker.turn (program messageSize) event =
      Worker.memberTurn (program messageSize) connId worker.app trans
        handler)
    {frame : Frame Server TransSelf Message} {thrown : Exception}
    {errorInfo : Foundation.ErrorInfo}
    (ran : handler (Worker.startFrame worker.app trans.self) =
      (.error (.exception thrown), frame))
    (info : getErrorInfo thrown = .ok errorInfo) (sent : frame.sends = [])
    (waited : frame.waits = []) :
    Worker.Answered worker later (Worker.target trans) := by
  have calls := (answersOnce messageSize).memberCalls_of_failed connId ran
    info sent waited
  apply error_answered numeric turned
  rw [turn, Worker.memberTurn]
  exact congrArg Prod.fst calls

theorem starts_answersFinished {roots : Int → Prop}
    (shape : Shape roots worker.app.files)
    (turned : Worker.Turned (program messageSize) worker
      (.receive now connId serviceId package) later)
    {factory : TransSelf} {start : ServerWorker}
    {after : MultiplyPhaseTransaction TransSelf × ServerWorker}
    (starts : worker.waitingTransaction package = none)
    (registered : findTransaction package.command =
      some (.multiplyPhase factory)) (app : start.app = worker.app)
    (call : Worker.callTransaction (program messageSize) now connId start
      (MultiplyPhaseTransaction.init worker.nextTransId factory connId
        package.triggerSource)
      (onInit (MultiplyPhaseTransaction.init worker.nextTransId factory connId
        package.triggerSource) connId package) = some after) :
    Worker.AnswersFinished (program messageSize) worker later
        (.receive now connId serviceId package) ↔
      ¬Silent messageSize worker
        (.worker (.receive now connId serviceId package)) := by
  generalize known : MultiplyPhaseTransaction.init worker.nextTransId factory
    connId package.triggerSource = trans at call
  have self : trans.self = factory := by
    rw [← known]
    rfl
  have turn : worker.turn (program messageSize)
      (.receive now connId serviceId package) =
      Worker.memberTurn (program messageSize) connId worker.app trans
        (onInit trans connId package) := by
    have same : (program messageSize).findTransaction package.command =
      some (.multiplyPhase factory) := registered
    simp only [Worker.turn, Worker.receiveTurn, starts, same, ← known]
    rfl
  have own : (worker.turn (program messageSize)
      (.receive now connId serviceId package)).trans = some trans := by
    rw [turn]
    rfl
  rw [turned.answersFinished_iff own, silent_starts starts registered]
  have last := onInit_callsLast connId package trans
    (Worker.startFrame worker.app trans.self)
  rcases Worker.called_cases call with
    ⟨frame, ran⟩ | ⟨thrown, errorInfo, frame, ran, info⟩
  · rw [app] at ran
    obtain ⟨sends, waits, asks, sent, waited⟩ := last.of_ok ran
    have calls : Worker.memberCalls (program messageSize) connId worker.app
        trans (onInit trans connId package) = (frame.sends, frame.waits) :=
      Worker.memberCalls_of_ok ran
    rw [Worker.startFrame, List.nil_append] at sent waited
    by_cases removes : factory = .removePath
    · rw [Asks, if_pos (self.trans removes)] at asks
      rw [sent, waited, asks.1, asks.2] at calls
      have sends : (worker.turn (program messageSize)
          (.receive now connId serviceId package)).sends = [] := by
        rw [turn, Worker.memberTurn, calls]
      have keeps : (worker.turn (program messageSize)
          (.receive now connId serviceId package)).keeps = false := by
        rw [turn, Worker.memberTurn, calls]
        rfl
      have asked : RemovalAsked worker.app connId package := by
        rw [onInit, self, removes] at ran
        exact (removePath_onInit_exact shape _).of_ok ran
      refine iff_of_false ?_ (not_not.mpr ⟨removes, asked⟩)
      exact fun answered => turned.not_answered sends _ (answered keeps)
    · rw [Asks, if_neg (self ▸ removes)] at asks
      rw [waited] at calls
      have keeps : (worker.turn (program messageSize)
          (.receive now connId serviceId package)).keeps = true := by
        rw [turn, Worker.memberTurn, calls]
        simpa using asks.2
      refine iff_of_true ?_ fun silent => removes silent.1
      intro ended
      rw [keeps] at ended
      cases ended
  · rw [app] at ran
    obtain ⟨sent, waited⟩ := last.of_error ran
    have answered := exception_answered numeric turned turn ran info sent
      waited
    apply iff_of_true (fun _ => answered)
    rintro ⟨removes, asked⟩
    rw [onInit, self, removes] at ran
    exact (removePath_onInit_exact shape _).of_error ran asked

/-- A response that is passed on is the one that `on_active` sends; the
others hold only numbers. -/
theorem passesOn_large_iff {waiting : MultiplyPhaseTransaction TransSelf}
    {frame : Frame Server TransSelf Message} {message : Message}
    (ran : onActive waiting.clearWaitingState connId package
      (Worker.startFrame worker.app waiting.clearWaitingState.self) =
        (.ok (), frame))
    (sent : frame.sends = [.reply waiting.clearWaitingState.firstConnId
      message waiting.clearWaitingState.firstTriggerSource])
    (small : (∀ sessionId, waiting.self ≠ .getFile sessionId) →
      isNumeric message = true) :
    (∃ response, PassesOn worker.app waiting package response ∧
        maxContentLen < messageSize response) ↔
      maxContentLen < messageSize message := by
  by_cases passes : ∃ sessionId, waiting.self = .getFile sessionId
  · obtain ⟨sessionId, self⟩ := passes
    obtain ⟨again, sentAgain, unique⟩ :=
      (onActive_getFile_exact waiting.clearWaitingState self).of_ok ran
    rw [sent] at sentAgain
    cases sentAgain
    constructor
    · rintro ⟨response, known, large⟩
      rwa [(unique response).mp (passesOn_clearWaitingState.mpr known)]
        at large
    · intro large
      exact ⟨message, passesOn_clearWaitingState.mp ((unique message).mpr rfl),
        large⟩
  · have fitting := numeric message (small fun sessionId self =>
      passes ⟨sessionId, self⟩)
    refine iff_of_false ?_ (Nat.not_lt.mpr fitting)
    rintro ⟨response, ⟨self, -, -⟩, -⟩
    exact passes ⟨_, self⟩

theorem active_answersFinished
    (turned : Worker.Turned (program messageSize) worker
      (.receive now connId serviceId package) later)
    {waiting : MultiplyPhaseTransaction TransSelf} {start : ServerWorker}
    {after : MultiplyPhaseTransaction TransSelf × ServerWorker}
    (answers : worker.waitingTransaction package = some waiting)
    (fits : waiting.fits connId serviceId package.command = true)
    (app : start.app = worker.app)
    (call : Worker.callTransaction (program messageSize) now connId start
      waiting.clearWaitingState
      (onActive waiting.clearWaitingState connId package) = some after) :
    Worker.AnswersFinished (program messageSize) worker later
        (.receive now connId serviceId package) ↔
      ¬Silent messageSize worker
        (.worker (.receive now connId serviceId package)) := by
  have turn : worker.turn (program messageSize)
      (.receive now connId serviceId package) =
      Worker.memberTurn (program messageSize) connId worker.app
        waiting.clearWaitingState
        (onActive waiting.clearWaitingState connId package) := by
    simp only [Worker.turn, Worker.receiveTurn, answers, fits]
    rfl
  have own : (worker.turn (program messageSize)
      (.receive now connId serviceId package)).trans =
      some waiting.clearWaitingState := by
    rw [turn]
    rfl
  rw [turned.answersFinished_iff own, silent_of_answers answers,
    and_iff_right fits]
  have last := onActive_callsLast connId package waiting.clearWaitingState
    (Worker.startFrame worker.app waiting.clearWaitingState.self)
  rcases Worker.called_cases call with
    ⟨frame, ran⟩ | ⟨thrown, errorInfo, frame, ran, info⟩
  · rw [app] at ran
    obtain ⟨sends, waits, ⟨quiet, responds⟩, sent, waited⟩ := last.of_ok ran
    have calls : Worker.memberCalls (program messageSize) connId worker.app
        waiting.clearWaitingState
        (onActive waiting.clearWaitingState connId package) =
        (frame.sends, frame.waits) := Worker.memberCalls_of_ok ran
    rw [Worker.startFrame, List.nil_append] at sent waited
    have sends_eq : (worker.turn (program messageSize)
        (.receive now connId serviceId package)).sends = sends := by
      rw [turn, Worker.memberTurn, calls, sent]
    have keeps : (worker.turn (program messageSize)
        (.receive now connId serviceId package)).keeps = false := by
      rw [turn, Worker.memberTurn, calls, waited, quiet]
      rfl
    rw [imp_iff_right keeps]
    split at responds
    · rename_i removes
      rw [responds] at sends_eq
      exact iff_of_false (turned.not_answered sends_eq _)
        (not_not.mpr (Or.inl removes))
    · rename_i other
      obtain ⟨message, small, rfl⟩ := responds
      have kept : ¬waiting.self = .removePath := other
      rw [or_iff_right kept, passesOn_large_iff numeric ran sent small,
        Nat.not_lt]
      exact turned.answered_reply sends_eq
  · rw [app] at ran
    obtain ⟨sent, waited⟩ := last.of_error ran
    have answered := exception_answered numeric turned turn ran info sent
      waited
    apply iff_of_true (fun _ => answered)
    rintro (removes | ⟨response, known, -⟩)
    · have self : waiting.clearWaitingState.self = .removePath := removes
      rw [onActive, self] at ran
      cases ran
    · have passes := passesOn_clearWaitingState.mpr known
      obtain ⟨self, -, -⟩ := known
      exact (onActive_getFile_exact waiting.clearWaitingState self).of_error
        ran _ passes

theorem timeout_answersFinished
    {event : Worker.Event Message ServerCall}
    (turned : Worker.Turned (program messageSize) worker event later)
    {waiting : MultiplyPhaseTransaction TransSelf}
    (turn : worker.turn (program messageSize) event =
      Worker.timeoutTurn (program messageSize) worker.app waiting) :
    Worker.AnswersFinished (program messageSize) worker later event := by
  obtain ⟨-, answered, -⟩ := onError_answers waiting.waitConnId
    waiting.clearWaitingState messageSize
    (toErrorInfo .errTransactionTimeout)
    (Worker.startFrame worker.app waiting.self)
  have own : (worker.turn (program messageSize) event).trans =
      some waiting.clearWaitingState := by
    rw [turn]
    rfl
  have sends : (worker.turn (program messageSize) event).sends =
      [.reply waiting.clearWaitingState.firstConnId
        ((protocol messageSize).rspError
          (toErrorInfo .errTransactionTimeout))
        waiting.clearWaitingState.firstTriggerSource] := by
    rw [turn]
    exact answered
  rw [turned.answersFinished_iff own]
  exact fun _ => error_answered numeric turned sends

/-- A step answers what it finishes unless it is one of the silent ones. -/
theorem answersFinished_iff
    (reachable : (serverMachine messageSize).Reachable worker)
    {event : Worker.Event Message ServerCall}
    (stepped : Worker.step (program messageSize) worker event =
      some later) :
    Worker.AnswersFinished (program messageSize) worker later event ↔
      ¬Silent messageSize worker (.worker event) := by
  have turned := Worker.step_turned stepped
  cases event with
  | receive now connId serviceId package =>
      have received : Worker.receive (program messageSize) now connId
          serviceId package worker = some later := stepped
      cases Worker.received_of_receive received with
      | unknown starts unregistered =>
          refine iff_of_true ?_ (not_silent_unknown starts unregistered)
          apply Worker.answersFinished_of_idle
          · simp only [Worker.turn, Worker.receiveTurn, starts, unregistered]
            rfl
          · intro _ _ _ _ handler same _ registered
            cases same
            rw [unregistered] at registered
            cases registered
      | foreign answers mismatch =>
          refine iff_of_true ?_ (not_silent_foreign answers mismatch)
          apply Worker.answersFinished_of_idle
          · simp only [Worker.turn, Worker.receiveTurn, answers, mismatch]
            rfl
          · intro _ _ _ _ handler same starts _
            cases same
            rw [answers] at starts
            cases starts
      | onePhase starts registered call =>
          exact onePhase_answersFinished numeric turned starts registered
            call
      | multiplyPhase starts registered call =>
          exact starts_answersFinished numeric (shape_of_reachable reachable)
            turned starts registered (by rfl) call
      | active answers fits call =>
          exact active_answersFinished numeric turned answers fits (by rfl)
            call
  | internal call =>
      refine iff_of_true ?_ fun silent => by cases silent
      exact Worker.answersFinished_of_idle rfl fun _ _ _ _ _ same => by
        cases same
  | expire now timerId =>
      refine iff_of_true ?_ fun silent => by cases silent
      have kinds := Worker.turns (program messageSize) worker
        (.expire now timerId)
      generalize same : worker.turn (program messageSize)
        (.expire now timerId) = turn at kinds
      cases kinds with
      | idle =>
          apply Worker.answersFinished_of_idle
          · rw [same]
            rfl
          · exact fun _ _ _ _ _ other => by cases other
      | timeout due registered =>
          exact timeout_answersFinished numeric turned same

end Finish

end Step

/-! ## Runs of the server -/

/-- Whatever request the step finishes, it puts a response to it on the
queue. -/
def AnswersRequests (messageSize : Message → Nat) (worker : ServerWorker) :
    ServerEvent → Prop
  | .worker event => ∀ later,
      Worker.step (program messageSize) worker event = some later →
      Worker.AnswersFinished (program messageSize) worker later event
  | .restart _ => True

/-- In a run of the server every request that is finished is answered exactly
if no step is a silent one.  Responses that hold only numbers fit. -/
theorem answersRequests_iff_not_silent {messageSize : Message → Nat}
    (numeric : ∀ message, isNumeric message = true →
      messageSize message ≤ maxContentLen)
    {events : List ServerEvent} {last : ServerWorker}
    (run : (serverMachine messageSize).Reaches events last) :
    (serverMachine messageSize).StepsMeet (AnswersRequests messageSize)
        events ↔
      (serverMachine messageSize).StepsMeet
        (fun worker event => ¬Silent messageSize worker event) events := by
  apply run.stepsMeet_iff
  intro worker event later reachable stepped
  cases event with
  | restart rest =>
      refine iff_of_true trivial fun silent => by cases silent
  | worker event =>
      have ran : Worker.step (program messageSize) worker event =
          some later := stepped
      have answers := answersFinished_iff numeric reachable ran
      constructor
      · exact fun meets => answers.mp (meets later ran)
      · intro quiet other same
        rw [ran] at same
        cases same
        exact answers.mpr quiet

/-- No step of `main` is a silent one, nor is a login. -/
theorem openingEvents_not_silent (messageSize : Message → Nat) :
    (serverMachine messageSize).StepsMeet
      (fun worker event => ¬Silent messageSize worker event)
      openingEvents := by
  apply Machine.StepsMeet.of_forall
  intro event opens worker silent
  simp only [openingEvents, clientRequest, List.mem_cons, List.not_mem_nil,
    or_false] at opens
  rcases opens with rfl | rfl | rfl | rfl
  · cases silent
  · cases silent
  · cases silent
  · cases silent with
    | dropped _ reported large => cases reported.reports
    | removed _ command removes => cases command
    | fragment answers fits passes large => cases answers
    | activated answers fits self => cases answers

/-- A response that holds only numbers takes a few bytes. -/
theorem byteSizeLong_le_of_isNumeric (message : Message)
    (numeric : isNumeric message = true) :
    message.byteSizeLong ≤ maxContentLen := by
  have number := int32Field_le
  have error := errorField_le
  cases message <;> first
    | exact absurd numeric Bool.false_ne_true
    | simp only [Message.byteSizeLong, maxContentLen]
      grind

theorem answersRequests_openingEvents :
    (serverMachine Message.byteSizeLong).StepsMeet
      (AnswersRequests Message.byteSizeLong) openingEvents := by
  have reaches : (serverMachine Message.byteSizeLong).Reaches openingEvents
      (((serverMachine Message.byteSizeLong).run
        (serverMachine Message.byteSizeLong).start openingEvents).get
          (by decide +kernel)) := (Option.some_get _).symm
  exact (answersRequests_iff_not_silent byteSizeLong_le_of_isNumeric
    reaches).mpr (openingEvents_not_silent _)

/-- A manager creates a directory. -/
def createEvents : List ServerEvent :=
  openingEvents ++ [clientRequest 5 (.reqCreatePath 1 ['d'])]

def createdWorker : ServerWorker :=
  (((serverMachine Message.byteSizeLong).run
    (serverMachine Message.byteSizeLong).start createEvents).get
      (by decide +kernel))

/-- The request of the manager to remove the directory again. -/
def removeStep : Worker.Event Message ServerCall :=
  .receive 0 5 0
    { command := 1041, selfPackageId := 2, triggerPackageId := 0
      content := some (.reqRemovePath 1 ['d'] false) }

/-- The server after the removal. -/
def emptiedWorker : ServerWorker :=
  ((Worker.step (program Message.byteSizeLong) createdWorker removeStep).get
    (by decide +kernel))

/-- The successful removal is not answered. -/
theorem not_answersRequests_removeStep :
    ¬∀ events : List ServerEvent,
      (serverMachine Message.byteSizeLong).StepsMeet
        (AnswersRequests Message.byteSizeLong) events := by
  intro always
  have reaches : (serverMachine Message.byteSizeLong).Reaches createEvents
      createdWorker := (Option.some_get _).symm
  have stepped : Worker.step (program Message.byteSizeLong) createdWorker
      removeStep = some emptiedWorker := (Option.some_get _).symm
  have own : (createdWorker.turn (program Message.byteSizeLong)
      removeStep).trans =
      some (MultiplyPhaseTransaction.init 1 .removePath 5
        { command := 1041, packageId := 2 }) := by decide +kernel
  have ended : emptiedWorker.transList[(1 : Int)]? = none := by
    decide +kernel
  have meets := (always (createEvents ++ [.worker removeStep])).last reaches
  obtain ⟨pushed, queue, present⟩ := meets emptiedWorker stepped _
    (.multiplyPhase own ended)
  have quiet : emptiedWorker.outQueue = createdWorker.outQueue := by
    decide +kernel
  rw [quiet, List.self_eq_append_right] at queue
  rw [queue] at present
  cases present

end ResourceServer
end Spaceless
