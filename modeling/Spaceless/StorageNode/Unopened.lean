import Spaceless.Protocol.Size
import Spaceless.StorageNode.Sharing
import Spaceless.StorageNode.Reply

/-!
# Get sessions of files that cannot be opened

The session is registered before the file is opened.  The exception of a file
that cannot be opened is of a class that `get_error_info` does not know, and
the assertion there ends the process.
-/

namespace Spaceless
namespace StorageNode

open Logic Foundation Protocol Frame

variable {permits : FileMode → Text → Bool} {messageSize : Message → Nat}

/-! ## The node between two packages -/

/-- No transaction waits, and the sessions are under their ids. -/
structure Resting (node : NodeWorker) : Prop where
  idle : ∀ transId : Int, node.transList[transId]? = none
  keyed : node.app.sessions.Keyed

theorem Resting.waitingTransaction {node : NodeWorker} (resting : Resting node)
    (package : Package Message) : node.waitingTransaction package = none := by
  unfold Worker.waitingTransaction Worker.findBoundTransaction
  split
  · split
    · rfl
    · exact resting.idle _
  · rfl

theorem Resting.receive {node later : NodeWorker} (resting : Resting node)
    {now connId serviceId : Int} {package : Package Message}
    (received : Worker.receive (program permits messageSize) now connId
      serviceId package node = some later) : Resting later := by
  refine ⟨?_, ?_⟩
  · cases Worker.received_of_receive received with
    | unknown starts unregistered => exact resting.idle
    | onePhase starts registered call =>
        intro transId
        have same := Worker.callOnePhase_transList call
        change (_ : Worker Storage Unit Message).transList[transId]? = none
        rw [Worker.removePackage, same]
        exact resting.idle transId
    | multiplyPhase starts registered call =>
        obtain ⟨handler, same⟩ := onePhase_of_findTransaction registered
        cases same
    | foreign answers mismatch =>
        rw [resting.waitingTransaction] at answers
        cases answers
    | active answers fits call =>
        rw [resting.waitingTransaction] at answers
        cases answers
  · rcases Storage.afterCall_of_receive received with same | ⟨call, same⟩
    · rw [same]
      exact resting.keyed
    · rw [same]
      exact SharedNode.keyed_next resting.keyed call

theorem Resting.step {node later : NodeWorker} (resting : Resting node)
    {event : Worker.Event Message Empty}
    (stepped : Worker.step (program permits messageSize) node event =
      some later) : Resting later := by
  cases event with
  | receive now connId serviceId package => exact resting.receive stepped
  | internal call => cases call
  | expire now timerId =>
      change Worker.processExpiryTimer _ now timerId node = some later
        at stepped
      unfold Worker.processExpiryTimer at stepped
      split at stepped
      · cases stepped
      · rename_i timer found
        split at stepped
        · cases stepped
        · split at stepped
          · cases stepped
            exact resting
          · simp only [Worker.transactionTimeout, resting.idle,
              Option.map_some, Option.some.injEq] at stepped
            rw [← stepped]
            exact ⟨resting.idle, resting.keyed⟩

theorem resting_init (sharingPath : Text) (files : Table Text (List UInt8)) :
    Resting (Worker.init (Storage.init sharingPath files) : NodeWorker) where
  idle transId := by simp [Worker.init]
  keyed := FileSessionManager.keyed_init

theorem resting_of_reachable {sharingPath : Text}
    {files : Table Text (List UInt8)} {node : NodeWorker}
    (reachable : (Worker.machine (program permits messageSize)
      (Storage.init sharingPath files)).Reachable node) : Resting node := by
  apply Machine.Reachable.invariant (resting_init sharingPath files)
    ?_ reachable
  intro state event next resting stepped
  exact resting.step stepped

/-! ## The request -/

/-- A request for a get session of a file. -/
structure Asks (package : Package Message) (filePath : Text) : Prop where
  command : package.command = 1035
  content : package.content = some (.reqNodeGetFileSession filePath)

/-- The file can be opened to read. -/
def CanOpen (permits : FileMode → Text → Bool) (storage : Storage)
    (filePath : Text) : Prop :=
  (∃ content, storage.files.files[
      storage.files.getAbsolutePath filePath]? = some content) ∧
    permits .read (storage.files.getAbsolutePath filePath) = true

/-- What the node pushes for a package. -/
def reply (messageSize : Message → Nat) (connId packageId : Int)
    (package : Package Message) (message : Message) : OutMessage Message where
  connId := connId
  serviceId := 0
  package :=
    { command := if (protocol messageSize).isRspError message ∧
          package.command ≠ 0 then
        (protocol messageSize).responseCommand package.command
      else (protocol messageSize).command message
      selfPackageId := packageId
      triggerPackageId := package.selfPackageId
      content := some message }

/-- The answer with the session. -/
def sessionResponse (session : FileSession) : RspGetFileSession where
  error := none
  sessionId := session.sessionId
  maxFragment := session.maxFragment

section Request

variable (permits : FileMode → Text → Bool) (messageSize : Message → Nat)
  (now connId serviceId : Int) (package : Package Message) (filePath : Text)

/-- The request is answered with a new session of the file. -/
def AnswersNewSession (node : NodeWorker) : Prop :=
  ∃ later session packageId,
    Worker.receive (program permits messageSize) now connId serviceId package
        node = some later ∧
      node.app.sessions.findSession session.sessionId = none ∧
      later.app.sessions.findSession session.sessionId = some session ∧
      session.filename = filePath ∧
      later.outQueue = node.outQueue ++
        [reply messageSize connId packageId package
          (.rspNodeGetFileSession (sessionResponse session))]

/-- That many requests in a row are each answered with an error and leave the
session list. -/
def AnswersErrors (node : NodeWorker) (count : Nat) : Prop :=
  ∃ later answers,
    (Worker.machine (program permits messageSize) node.app).run node
        (List.replicate count (.receive now connId serviceId package)) =
          some later ∧
      answers.length = count ∧
      (∀ answer ∈ answers, ∃ packageId errorInfo,
        answer = reply messageSize connId packageId package
          ((protocol messageSize).rspError errorInfo)) ∧
      later.outQueue = node.outQueue ++ answers ∧
      later.app.sessions.sessionList = node.app.sessions.sessionList

/-- A file that can be opened gets a session, another one an error, however
often it is asked for. -/
def AnswersRequest (node : NodeWorker) : Prop :=
  (CanOpen permits node.app filePath →
      AnswersNewSession permits messageSize now connId serviceId package
        filePath node) ∧
    (¬CanOpen permits node.app filePath → ∀ count,
      AnswersErrors permits messageSize now connId serviceId package node
        count)

end Request

/-! ## What the node does -/

section Run

variable {now connId serviceId : Int} {package : Package Message}
  {filePath : Text} {storage : Storage} {node : NodeWorker}

/-- A file that can be opened is divided into fragments by its size. -/
theorem registerGetSession_of_found (keyed : storage.sessions.Keyed)
    (unused : storage.sessions.findSessionOf filePath = none)
    {content : List UInt8}
    (found : storage.files.files[
      storage.files.getAbsolutePath filePath]? = some content)
    (permitted : permits .read
      (storage.files.getAbsolutePath filePath) = true)
    (fragmentContentLen : Int) :
    let session : FileSession :=
      { sessionId := storage.sessions.nextId, filename := filePath
        maxFragment := maxFragmentOf content.length fragmentContentLen }
    Storage.registerGetSession permits filePath fragmentContentLen storage =
      (.ok session,
        { storage with sessions := storage.sessions.register session }) := by
  simp only [Storage.registerGetSession, Action.bind_apply,
    Storage.onSessions, Action.zoom_apply, keyed.registerSession unused,
    Action.check_apply, Storage.fileSize, found, permitted,
    Action.modify_apply, Action.pure_apply,
    FileSessionManager.setSession_register]

theorem getSession_of_found (keyed : storage.sessions.Keyed)
    (unused : storage.sessions.findSessionOf filePath = none)
    {content : List UInt8}
    (found : storage.files.files[
      storage.files.getAbsolutePath filePath]? = some content)
    (permitted : permits .read
      (storage.files.getAbsolutePath filePath) = true) :
    let session : FileSession :=
      { sessionId := storage.sessions.nextId, filename := filePath
        maxFragment := maxFragmentOf content.length maxFragmentContentLen }
    getSession permits filePath storage =
      (.ok session,
        { storage with sessions := storage.sessions.register session }) := by
  simp only [getSession, Action.bind_apply, Action.read_apply, unused]
  exact registerGetSession_of_found keyed unused found permitted _

/-- The session stays in the list, with no fragments. -/
theorem getSession_of_shut (keyed : storage.sessions.Keyed)
    (unused : storage.sessions.findSessionOf filePath = none)
    (shut : ¬CanOpen permits storage filePath) :
    getSession permits filePath storage =
      (.error (.exception .openFileError),
        { storage with
          sessions := storage.sessions.register
            { sessionId := storage.sessions.nextId, filename := filePath
              maxFragment := 0 } }) := by
  have fails : Storage.fileSize permits
      (storage.files.getAbsolutePath filePath) storage.files =
        .error (.exception .openFileError) := by
    unfold Storage.fileSize
    split
    · rename_i content found permitted
      exact absurd ⟨⟨content, found⟩, permitted⟩ shut
    · rfl
  simp only [getSession, Action.bind_apply, Action.read_apply, unused,
    Storage.registerGetSession, Storage.onSessions, Action.zoom_apply,
    keyed.registerSession unused, Action.check_apply, fails]

theorem onGetFileSession_of_asks (asks : Asks package filePath)
    (frame : Frame Storage Unit Message) :
    onGetFileSession permits connId package frame =
      (onApp (getSession permits filePath) >>= fun session =>
        sendBackProtocol connId
          (.rspNodeGetFileSession (sessionResponse session))
          package.triggerSource : Handler Storage Unit Message Unit)
        frame := by
  unfold onGetFileSession parse
  rw [Action.bind_apply, Action.check_apply, Package.parseToProtocol,
    asks.content]
  rfl

theorem receive_of_asks (resting : Resting node)
    (asks : Asks package filePath) :
    Worker.receive (program permits messageSize) now connId serviceId package
        node =
      (Worker.callOnePhase (program permits messageSize) connId package
        (Worker.registerPackage package node)
        (onGetFileSession permits connId package)).map
          (Worker.removePackage node.packages.nextId) := by
  have waits : (Worker.registerPackage package node).waitingTransaction
      package = none := resting.waitingTransaction package
  have registered : (program permits messageSize).findTransaction
      package.command =
        some (.onePhase fun _ => onGetFileSession permits) := by
    rw [asks.command]
    rfl
  unfold Worker.registerPackage at waits ⊢
  simp only [Worker.receive, Worker.triggerTransaction,
    Table.lookup_insert_self, waits, Worker.createTransaction, registered]

theorem receive_of_shut (resting : Resting node)
    (asks : Asks package filePath)
    (unused : node.app.sessions.findSessionOf filePath = none)
    (shut : ¬CanOpen permits node.app filePath) :
    Worker.receive (program permits messageSize) now connId serviceId package
      node = none := by
  have fails := getSession_of_shut resting.keyed unused shut
  rw [receive_of_asks resting asks, Option.map_eq_none_iff]
  simp only [Worker.callOnePhase, onGetFileSession_of_asks asks,
    Action.bind_apply, onApp_apply, Worker.registerPackage, fails,
    getErrorInfo]

theorem receive_of_canOpen (resting : Resting node)
    (fits : ∀ session, messageSize
      (.rspNodeGetFileSession (sessionResponse session)) ≤ maxContentLen)
    (asks : Asks package filePath)
    (unused : node.app.sessions.findSessionOf filePath = none)
    (opens : CanOpen permits node.app filePath) :
    AnswersNewSession permits messageSize now connId serviceId package
      filePath node := by
  obtain ⟨⟨content, found⟩, permitted⟩ := opens
  have got := getSession_of_found resting.keyed unused found permitted
  have small (session : FileSession) : ¬maxContentLen <
      (program permits messageSize).protocol.messageSize
        (.rspNodeGetFileSession (sessionResponse session)) :=
    not_lt.mpr (fits session)
  unfold AnswersNewSession
  rw [receive_of_asks resting asks]
  simp only [Worker.callOnePhase, onGetFileSession_of_asks asks,
    Action.bind_apply, onApp_apply, Worker.registerPackage, got,
    sendBackProtocol, sendProtocol, Action.modify_apply,
    Worker.sendAll, List.nil_append, List.foldl_cons, List.foldl_nil,
    Worker.sendProtocol, if_neg (small _), Option.map_some,
    Option.some.injEq]
  refine ⟨_, { sessionId := node.app.sessions.nextId, filename := filePath
               maxFragment :=
                maxFragmentOf content.length maxFragmentContentLen }, _, rfl,
    resting.keyed.not_found_nextId,
    FileSessionManager.findSession_register_self _, rfl, rfl⟩

/-- A node that answers once has not ended. -/
theorem AnswersErrors.goesOn
    (answers : AnswersErrors permits messageSize now connId serviceId package
      node 1) :
    Worker.receive (program permits messageSize) now connId serviceId package
      node ≠ none := by
  obtain ⟨later, _, ran, -⟩ := answers
  intro ended
  have received : (Worker.receive (program permits messageSize) now connId
      serviceId package node).bind some = some later := ran
  rw [ended] at received
  cases received

/-- The request is handled as asked exactly where the file can be opened. -/
theorem answersRequest_iff {sharingPath : Text}
    {files : Table Text (List UInt8)}
    (reachable : (Worker.machine (program permits messageSize)
      (Storage.init sharingPath files)).Reachable node)
    (fits : ∀ session, messageSize
      (.rspNodeGetFileSession (sessionResponse session)) ≤ maxContentLen)
    (asks : Asks package filePath)
    (unused : node.app.sessions.findSessionOf filePath = none) :
    AnswersRequest permits messageSize now connId serviceId package filePath
        node ↔
      CanOpen permits node.app filePath := by
  have resting := resting_of_reachable reachable
  constructor
  · intro answers
    by_contra shut
    exact (answers.2 shut 1).goesOn
      (receive_of_shut resting asks unused shut)
  · intro opens
    exact ⟨fun _ => receive_of_canOpen resting fits asks unused opens,
      fun shut => absurd opens shut⟩

end Run

/-- A request for a file named `f`. -/
def askForF : Package Message where
  command := 1035
  selfPackageId := 1
  triggerPackageId := 0
  content := some (.reqNodeGetFileSession ['f'])

theorem asks_askForF : Asks askForF ['f'] := ⟨rfl, rfl⟩

/-- A node that has just started, with those files in the directory `d`. -/
def started (files : Table Text (List UInt8)) : NodeWorker :=
  Worker.init (Storage.init ['d'] files)

theorem unused_started (files : Table Text (List UInt8)) :
    (started files).app.sessions.findSessionOf ['f'] = none := by
  apply Option.map_eq_none_iff.mpr
  apply Table.findIf_eq_none.mpr
  intro sessionId session found
  simp [started, Worker.init, Storage.init, FileSessionManager.init]
    at found

/-- An id and a number of fragments take a few bytes. -/
theorem byteSizeLong_sessionResponse_le (session : FileSession) :
    Message.byteSizeLong (.rspNodeGetFileSession (sessionResponse session)) ≤
      maxContentLen := by
  have sessionId := int32Field_le session.sessionId
  have maxFragment := int32Field_le session.maxFragment
  simp only [Message.byteSizeLong, sessionResponse, errorField,
    maxContentLen]
  omega

theorem answersRequest_iff_storedFile :
    AnswersRequest (fun _ _ => true) Message.byteSizeLong 0 1 0 askForF ['f']
      (started ((∅ : Table Text (List UInt8)).insert ['d', '/', 'f'] [7])) :=
  (answersRequest_iff ⟨[], rfl⟩ byteSizeLong_sessionResponse_le asks_askForF
    (unused_started _)).mpr
      ⟨⟨[7], by decide +kernel⟩, rfl⟩

/-- The request for a file that is not there ends the process. -/
theorem not_answersRequest :
    ¬AnswersRequest (fun _ _ => true) Message.byteSizeLong 0 1 0 askForF ['f']
      (started ∅) := by
  have shut : ¬CanOpen (fun _ _ => true) (started ∅).app ['f'] := by
    rintro ⟨⟨content, found⟩, -⟩
    simp [started, Worker.init, Storage.init, SharingFileManager.init]
      at found
  intro answers
  exact (answers.2 shut 1).goesOn (receive_of_shut (resting_init ['d'] ∅)
    asks_askForF (unused_started ∅) shut)

end StorageNode
end Spaceless
