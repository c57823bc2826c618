import Spaceless.Foundation.Worker
import Spaceless.Protocol.Message
import Spaceless.StorageNode.Session

/-!
# The transactions of the storage node

The one-phase handlers that `main` registers, and the program that they make
up on the worker.
-/

namespace Spaceless
namespace StorageNode

open Logic Foundation Protocol

section Handlers

open Frame Storage

-- whether `fopen` can open a path, apart from a missing file to read
variable (permits : FileMode → Text → Bool)

variable {α : Type}

/-- `package.parse_to_protocol(request)`. -/
def parse (package : Package Message) (select : Message → Option α) :
    Handler Storage Unit Message α :=
  Action.check fun _ => package.parseToProtocol select

/-- Parse a request for a put session. -/
def asReqNodePutFileSession : Message → Option ReqNodePutFileSession
  | .reqNodePutFileSession request => some request
  | _ => none

/-- The session of `on_put_file_session`: a live one for the file name is used
again, and must be asked for with its own number of fragments. -/
def putSession (request : ReqNodePutFileSession) :
    Action Fault Storage FileSession := do
  let found ← Action.read fun storage =>
    storage.sessions.findSessionOf request.filePath
  match found with
  | some session =>
      Action.throwIf (request.maxFragment ≠ session.maxFragment)
        ErrorCode.errFileSessionCannotChangeMaxFragment.fault
      pure session
  | none =>
      onSessions (FileSessionManager.registerPutSession request.filePath
        request.maxFragment)

def onPutFileSession (connId : Int) (package : Package Message) :
    Handler Storage Unit Message Unit := do
  let request ← parse package asReqNodePutFileSession
  let session ← onApp (putSession request)
  sendBackProtocol connId
    (.rspNodePutFileSession { error := none, sessionId := session.sessionId })
    package.triggerSource

/-- Parse a request that puts a fragment. -/
def asReqPutFile : Message → Option ReqPutFile
  | .reqPutFile request => some request
  | _ => none

/-- The start position of a fragment in `int`; C++ leaves an overflow of the
product undefined. -/
def startPosOf (fragmentIndex : Int) : Except Fault Int :=
  let product := fragmentIndex * maxFragmentContentLen
  if -2147483648 ≤ product ∧ product < 2147483648 then .ok product
  else .error .undefined

/-- The session of a fragment request. -/
def fragmentSession (sessionId fragmentIndex : Int) :
    Action Fault Storage FileSession := do
  let session ← Action.check fun storage =>
    storage.sessions.getSession sessionId
  Action.throwIf (session.maxFragment ≤ fragmentIndex)
    ErrorCode.errFileSessionInvalidFragment.fault
  pure session

/-- The last fragment ends the session. -/
def removeAtLast (session : FileSession) (fragmentIndex : Int) :
    Action Fault Storage Unit :=
  Action.modify fun storage =>
    if fragmentIndex + 1 = session.maxFragment then
      { storage with
        sessions := storage.sessions.removeSession session.sessionId }
    else storage

/-- What `on_put_file` does with a request. -/
def putFragment (request : ReqPutFile) : Action Fault Storage Unit := do
  let session ← fragmentSession request.sessionId request.fragmentIndex
  let startPos ← Action.check fun _ => startPosOf request.fragmentIndex
  onFiles (SharingFileManager.putFile permits session.filename
    request.fragmentContent startPos)
  removeAtLast session request.fragmentIndex

def onPutFile (connId : Int) (package : Package Message) :
    Handler Storage Unit Message Unit := do
  let request ← parse package asReqPutFile
  onApp (putFragment permits request)
  sendBackProtocol connId
    (.rspPutFile
      { error := none, sessionId := request.sessionId
        fragmentIndex := request.fragmentIndex })
    package.triggerSource

/-- The session of `on_get_file_session`. -/
def getSession (filePath : Text) : Action Fault Storage FileSession := do
  let found ← Action.read fun storage =>
    storage.sessions.findSessionOf filePath
  match found with
  | some session => pure session
  | none => registerGetSession permits filePath maxFragmentContentLen

def onGetFileSession (connId : Int) (package : Package Message) :
    Handler Storage Unit Message Unit := do
  let filePath ← parse package fun
    | .reqNodeGetFileSession filePath => some filePath
    | _ => none
  let session ← onApp (getSession permits filePath)
  sendBackProtocol connId
    (.rspNodeGetFileSession
      { error := none, sessionId := session.sessionId
        maxFragment := session.maxFragment })
    package.triggerSource

/-- What `on_get_file` does with a request: the bytes of the fragment. -/
def getFragment (request : ReqGetFile) :
    Action Fault Storage (List UInt8) := do
  let session ← fragmentSession request.sessionId request.fragmentIndex
  let startPos ← Action.check fun _ => startPosOf request.fragmentIndex
  let fileContent ← onFiles (SharingFileManager.getFile permits
    session.filename maxFragmentContentLen.toNat startPos)
  removeAtLast session request.fragmentIndex
  pure fileContent

/-- The response does not name the session. -/
def onGetFile (connId : Int) (package : Package Message) :
    Handler Storage Unit Message Unit := do
  let request ← parse package fun
    | .reqGetFile request => some request
    | _ => none
  let fileContent ← onApp (getFragment permits request)
  sendBackProtocol connId
    (.rspGetFile
      { error := none, sessionId := 0
        fragmentIndex := request.fragmentIndex
        fragmentContent := fileContent })
    package.triggerSource

/-- The transactions that `main` registers. -/
def findTransaction (command : Int) :
    Option (Transaction Storage Unit Message) :=
  match command with
  | 1029 => some (.onePhase fun _ => onPutFileSession)
  | 1031 => some (.onePhase fun _ => onPutFile permits)
  | 1035 => some (.onePhase fun _ => onGetFileSession permits)
  | 1037 => some (.onePhase fun _ => onGetFile permits)
  | _ => none

end Handlers

/-- The storage node as a program; it has no multiply-phase transactions and
makes no internal calls. -/
def program (permits : FileMode → Text → Bool)
    (messageSize : Message → Nat) : Program Storage Unit Message Empty where
  protocol := protocol messageSize
  findTransaction := findTransaction permits
  onInit := fun _ _ _ => pure ()
  onActive := fun _ _ _ => pure ()
  onError := fun _ _ _ => pure ()
  internal := nofun

end StorageNode
end Spaceless
