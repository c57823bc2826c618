import Spaceless.Logic.Rounding
import Spaceless.StorageNode.File

/-!
# Sessions of the storage node

`FileSessionManager` keeps one session for a file name, put or get, and
hands out ids in increasing order.  A get session is registered before its
file is opened to count the fragments.
-/

namespace Spaceless
namespace StorageNode

open Logic Foundation

structure FileSession where
  sessionId : Int
  filename : Text
  maxFragment : Int
  deriving DecidableEq

structure FileSessionManager where
  sessionList : Table Int FileSession
  nextId : Int
  deriving DecidableEq

/-- The number of fragments of a file, computed in `float`. -/
def maxFragmentOf (fileSize : Nat) (fragmentContentLen : Int) : Int :=
  ⌈roundToBits 24 (roundToBits 24 fileSize / fragmentContentLen)⌉

namespace FileSessionManager

/-- The manager as constructed. -/
def init : FileSessionManager where
  sessionList := ∅
  nextId := 1

/-- `find_session` by id. -/
def findSession (manager : FileSessionManager) (sessionId : Int) :
    Option FileSession :=
  manager.sessionList[sessionId]?

/-- `find_session` by file name. -/
def findSessionOf (manager : FileSessionManager) (filename : Text) :
    Option FileSession :=
  (manager.sessionList.findIf fun session =>
    session.filename == filename).map Prod.snd

def getSession (manager : FileSessionManager) (sessionId : Int) :
    Except Fault FileSession :=
  match manager.findSession sessionId with
  | some session => .ok session
  | none => .error ErrorCode.errFileSessionNotExist.fault

/-- Replace the entry of a session that is in the list. -/
def setSession (manager : FileSessionManager) (session : FileSession) :
    FileSessionManager :=
  { manager with
    sessionList := manager.sessionList.insert session.sessionId session }

def removeSession (manager : FileSessionManager) (sessionId : Int) :
    FileSessionManager :=
  { manager with sessionList := manager.sessionList.erase sessionId }

def registerSession (filename : Text) :
    Action Fault FileSessionManager FileSession := fun manager =>
  match manager.findSessionOf filename with
  | some _ => (.error ErrorCode.errFileSessionAlreadyExist.fault, manager)
  | none =>
      let session : FileSession :=
        { sessionId := manager.nextId, filename := filename
          maxFragment := 0 }
      let counted := { manager with nextId := manager.nextId + 1 }
      match manager.findSession session.sessionId with
      | some _ => (.error ErrorCode.errFileSessionAlreadyExist.fault, counted)
      | none => (.ok session, counted.setSession session)

def registerPutSession (filename : Text) (maxFragment : Int) :
    Action Fault FileSessionManager FileSession := do
  let session ← registerSession filename
  let counted := { session with maxFragment := maxFragment }
  Action.modify fun manager => manager.setSession counted
  pure counted

end FileSessionManager

/-- The singletons of the process. -/
structure Storage where
  files : SharingFileManager
  sessions : FileSessionManager
  deriving DecidableEq

namespace Storage

variable {α : Type}

/-- The singletons after `set_sharing_path` on the stored files. -/
def init (sharingPath : Text) (files : Table Text (List UInt8)) :
    Storage where
  files := SharingFileManager.init sharingPath files
  sessions := FileSessionManager.init

def onFiles (action : Action Fault SharingFileManager α) :
    Action Fault Storage α :=
  Action.zoom Storage.files
    (fun storage files => { storage with files := files }) action

def onSessions (action : Action Fault FileSessionManager α) :
    Action Fault Storage α :=
  Action.zoom Storage.sessions
    (fun storage sessions => { storage with sessions := sessions }) action

/-- The size of a file that is opened to read. -/
def fileSize (permits : FileMode → Text → Bool) (path : Text)
    (files : SharingFileManager) : Except Fault Nat :=
  match files.files[path]?, permits .read path with
  | some content, true => .ok content.length
  | _, _ => .error (.exception .openFileError)

/-- `FileSessionManager::register_get_session`. -/
def registerGetSession (permits : FileMode → Text → Bool) (filename : Text)
    (fragmentContentLen : Int) : Action Fault Storage FileSession := do
  let session ← onSessions (FileSessionManager.registerSession filename)
  let fileSize ← Action.check fun storage =>
    fileSize permits (storage.files.getAbsolutePath filename) storage.files
  let counted :=
    { session with maxFragment := maxFragmentOf fileSize fragmentContentLen }
  onSessions (Action.modify fun manager => manager.setSession counted)
  pure counted

end Storage

end StorageNode
end Spaceless
