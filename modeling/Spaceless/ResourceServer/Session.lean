import Spaceless.Logic.Table
import Spaceless.ResourceServer.Error

/-!
# File sessions

`FileSessionManager` keeps put and get sessions in one list by id, and for
each group the session that was registered last for a path.  Removing a
session leaves that second list alone; a lookup that meets a removed session
cleans up then.
-/

namespace Spaceless
namespace ResourceServer

open Logic Foundation

structure PutFileSession where
  sessionId : Int
  userId : Int
  groupId : Int
  filePath : Text
  maxFragment : Int
  nextFragment : Int
  nodeSessionId : Int
  deriving DecidableEq

/-- The constructor of `PutFileSession`. -/
def PutFileSession.init (sessionId userId groupId : Int) (filePath : Text)
    (maxFragment : Int) : PutFileSession where
  sessionId := sessionId
  userId := userId
  groupId := groupId
  filePath := filePath
  maxFragment := maxFragment
  nextFragment := 0
  nodeSessionId := 0

structure GetFileSession where
  sessionId : Int
  userId : Int
  groupId : Int
  filePath : Text
  nodeSessionId : Int
  deriving DecidableEq

/-- The constructor of `GetFileSession`. -/
def GetFileSession.init (sessionId userId groupId : Int)
    (filePath : Text) : GetFileSession where
  sessionId := sessionId
  userId := userId
  groupId := groupId
  filePath := filePath
  nodeSessionId := 0

/-- `FileSessionManager::Session`: the type and the entry. -/
inductive Session
  | put (session : PutFileSession)
  | get (session : GetFileSession)
  deriving DecidableEq

structure FileSessionManager where
  sessionList : Table Int Session
  groupSessionList : Table Int (Table Text Int)
  nextId : Int
  deriving DecidableEq

namespace FileSessionManager

/-- The manager as constructed. -/
def init : FileSessionManager where
  sessionList := ∅
  groupSessionList := ∅
  nextId := 1

def onRegisterSession (manager : FileSessionManager)
    (groupId : Int) (filePath : Text) (sessionId : Int) :
    FileSessionManager :=
  { manager with
    groupSessionList := manager.groupSessionList.insert groupId
      ((manager.groupSessionList[groupId]?.getD ∅).insert
        filePath sessionId) }

/-- What `register_put_session` and `register_get_session` share: `entry` is
the new session with the id that is its argument. -/
def registerSession (groupId : Int) (filePath : Text)
    (entry : Int → Session) : Action Fault FileSessionManager Int :=
  fun manager =>
    let sessionId := manager.nextId
    let counted := { manager with nextId := manager.nextId + 1 }
    match manager.sessionList[sessionId]? with
    | some _ => (.error ErrorCode.errFileSessionAlreadyExist.fault, counted)
    | none =>
        (.ok sessionId,
          { counted with
            sessionList := manager.sessionList.insert sessionId
              (entry sessionId) }.onRegisterSession
                groupId filePath sessionId)

def registerPutSession (userId groupId : Int) (filePath : Text)
    (maxFragment : Int) : Action Fault FileSessionManager Int :=
  registerSession groupId filePath fun sessionId =>
    .put (PutFileSession.init sessionId userId groupId filePath maxFragment)

def registerGetSession (userId groupId : Int) (filePath : Text) :
    Action Fault FileSessionManager Int :=
  registerSession groupId filePath fun sessionId =>
    .get (GetFileSession.init sessionId userId groupId filePath)

def removeSession (manager : FileSessionManager) (sessionId : Int) :
    FileSessionManager :=
  { manager with sessionList := manager.sessionList.erase sessionId }

/-- `find_put_session` by id. -/
def findPutSession (manager : FileSessionManager) (sessionId : Int) :
    Option PutFileSession :=
  match manager.sessionList[sessionId]? with
  | some (.put session) => some session
  | _ => none

/-- `find_get_session` by id. -/
def findGetSession (manager : FileSessionManager) (sessionId : Int) :
    Option GetFileSession :=
  match manager.sessionList[sessionId]? with
  | some (.get session) => some session
  | _ => none

/-- `find_session`, which may clean up the entry of a removed session. -/
def findSession (manager : FileSessionManager)
    (groupId : Int) (filePath : Text) : Option Session × FileSessionManager :=
  match manager.groupSessionList[groupId]? with
  | none => (none, manager)
  | some groupSession =>
      match groupSession[filePath]? with
      | none => (none, manager)
      | some sessionId =>
          match manager.sessionList[sessionId]? with
          | some session => (some session, manager)
          | none =>
              (none,
                { manager with
                  groupSessionList := manager.groupSessionList.insert groupId
                    (groupSession.erase filePath) })

/-- `find_put_session` by user, group and path. -/
def findPutSessionOf (userId groupId : Int) (filePath : Text) :
    Action Fault FileSessionManager (Option PutFileSession) := fun manager =>
  match manager.findSession groupId filePath with
  | (some (.put session), later) =>
      (.ok (if session.userId = userId then some session else none), later)
  | (_, later) => (.ok none, later)

/-- `find_get_session` by user, group and path. -/
def findGetSessionOf (userId groupId : Int) (filePath : Text) :
    Action Fault FileSessionManager (Option GetFileSession) := fun manager =>
  match manager.findSession groupId filePath with
  | (some (.get session), later) =>
      (.ok (if session.userId = userId then some session else none), later)
  | (_, later) => (.ok none, later)

def getPutSession (manager : FileSessionManager) (sessionId : Int) :
    Except Fault PutFileSession :=
  match manager.findPutSession sessionId with
  | some session => .ok session
  | none => .error ErrorCode.errFileSessionNotExist.fault

def getGetSession (manager : FileSessionManager) (sessionId : Int) :
    Except Fault GetFileSession :=
  match manager.findGetSession sessionId with
  | some session => .ok session
  | none => .error ErrorCode.errFileSessionNotExist.fault

/-- Replace the entry of a session that is in the list. -/
def setSession (manager : FileSessionManager)
    (sessionId : Int) (session : Session) : FileSessionManager :=
  { manager with
    sessionList := manager.sessionList.insert sessionId session }

/-- Write the node's session id through what `find_put_session` returns; a
null pointer has no defined behaviour. -/
def setPutNodeSession (sessionId nodeSessionId : Int) :
    Action Fault FileSessionManager PutFileSession := fun manager =>
  match manager.findPutSession sessionId with
  | none => (.error .undefined, manager)
  | some session =>
      (.ok session, manager.setSession sessionId
        (.put { session with nodeSessionId := nodeSessionId }))

/-- Write the node's session id through what `find_get_session` returns. -/
def setGetNodeSession (sessionId nodeSessionId : Int) :
    Action Fault FileSessionManager Unit := fun manager =>
  match manager.findGetSession sessionId with
  | none => (.error .undefined, manager)
  | some session =>
      (.ok (), manager.setSession sessionId
        (.get { session with nodeSessionId := nodeSessionId }))

end FileSessionManager

end ResourceServer
end Spaceless
