import Spaceless.ResourceServer.User
import Spaceless.ResourceServer.Group
import Spaceless.ResourceServer.Node
import Spaceless.ResourceServer.Session

/-!
# The managers of the resource server

The singletons of the process, and the data file that `SerializationManager`
writes now and then and reads at the next start.
-/

namespace Spaceless
namespace ResourceServer

open Logic Foundation

structure SharingGroupManager where
  groupList : Table Int SharingGroup
  nextId : Int
  deriving DecidableEq

namespace SharingGroupManager

/-- The manager as constructed. -/
def init : SharingGroupManager where
  groupList := ∅
  nextId := 1

def findGroup (manager : SharingGroupManager) (groupId : Int) :
    Option SharingGroup :=
  manager.groupList[groupId]?

/-- `find_group` by name. -/
def findGroupByName (manager : SharingGroupManager) (groupName : Text) :
    Option SharingGroup :=
  (manager.groupList.findIf fun group => group.groupName == groupName).map
    Prod.snd

def getGroup (manager : SharingGroupManager) (groupId : Int) :
    Except Fault SharingGroup :=
  match manager.findGroup groupId with
  | some group => .ok group
  | none => .error ErrorCode.errGroupNotExist.fault

/-- Replace the entry of a group that is in the list. -/
def setGroup (manager : SharingGroupManager)
    (groupId : Int) (group : SharingGroup) : SharingGroupManager :=
  { manager with groupList := manager.groupList.insert groupId group }

/-- What `SharingGroupManager::serialize` writes. -/
structure Object where
  nextId : Int
  groupList : List SharingGroup
  deriving DecidableEq

def serialize (manager : SharingGroupManager) : Object where
  nextId := manager.nextId
  groupList := manager.groupList.toList.map Prod.snd

/-- `deserialize` into a fresh manager. -/
def deserialize (object : Object) : SharingGroupManager where
  groupList := Table.insertAll ∅ (object.groupList.map fun group =>
    (group.groupId, group))
  nextId := object.nextId

end SharingGroupManager

/-- The data file. -/
structure DataFile where
  users : UserManagerObject
  groups : SharingGroupManager.Object
  files : SharingFileManager.Object
  nodes : StorageNodeManager.Object
  deriving DecidableEq

structure Server where
  users : UserManager
  groups : SharingGroupManager
  files : SharingFileManager
  nodes : StorageNodeManager
  sessions : FileSessionManager
  dataFile : Option DataFile
  deriving DecidableEq

namespace Server

/-- All managers as constructed, and no data file. -/
def init : Server where
  users := UserManager.init
  groups := SharingGroupManager.init
  files := SharingFileManager.init
  nodes := StorageNodeManager.init
  sessions := FileSessionManager.init
  dataFile := none

variable {α : Type}

def onUsers (action : Action Fault UserManager α) : Action Fault Server α :=
  Action.zoom Server.users
    (fun server users => { server with users := users }) action

def onGroups (action : Action Fault SharingGroupManager α) :
    Action Fault Server α :=
  Action.zoom Server.groups
    (fun server groups => { server with groups := groups }) action

def onFiles (action : Action Fault SharingFileManager α) :
    Action Fault Server α :=
  Action.zoom Server.files
    (fun server files => { server with files := files }) action

def onNodes (action : Action Fault StorageNodeManager α) :
    Action Fault Server α :=
  Action.zoom Server.nodes
    (fun server nodes => { server with nodes := nodes }) action

def onSessions (action : Action Fault FileSessionManager α) :
    Action Fault Server α :=
  Action.zoom Server.sessions
    (fun server sessions => { server with sessions := sessions }) action

@[simp] theorem after_onUsers (action : Action Fault UserManager α)
    (server : Server) :
    (onUsers action).after server =
      { server with users := action.after server.users } := rfl

@[simp] theorem after_onGroups (action : Action Fault SharingGroupManager α)
    (server : Server) :
    (onGroups action).after server =
      { server with groups := action.after server.groups } := rfl

@[simp] theorem after_onFiles (action : Action Fault SharingFileManager α)
    (server : Server) :
    (onFiles action).after server =
      { server with files := action.after server.files } := rfl

@[simp] theorem after_onNodes (action : Action Fault StorageNodeManager α)
    (server : Server) :
    (onNodes action).after server =
      { server with nodes := action.after server.nodes } := rfl

@[simp] theorem after_onSessions (action : Action Fault FileSessionManager α)
    (server : Server) :
    (onSessions action).after server =
      { server with sessions := action.after server.sessions } := rfl

def getLoginUser (connId : Int) : Action Fault Server User :=
  Action.check fun server => server.users.getLoginUser connId

def getGroup (groupId : Int) : Action Fault Server SharingGroup :=
  Action.check fun server => server.groups.getGroup groupId

def getNode (nodeId : Int) : Action Fault Server StorageNode :=
  Action.check fun server => server.nodes.getNode nodeId

/-- Run an action on the entry of a group. -/
def onGroup (groupId : Int) (action : Action Fault SharingGroup α) :
    Action Fault Server α := fun server =>
  match server.groups.getGroup groupId with
  | .error fault => (.error fault, server)
  | .ok group =>
      ((action group).1,
        { server with
          groups := server.groups.setGroup groupId (action group).2 })

/-- `SharingGroupManager::register_group`; the result is the group id. -/
def registerGroup (userId : Int) (groupName : Text) :
    Action Fault Server Int := do
  let oldGroup ← Action.read fun server =>
    server.groups.findGroupByName groupName
  Action.throwIf (oldGroup ≠ none) ErrorCode.errGroupAlreadyExist.fault
  let rootDirId ← onFiles
    (SharingFileManager.registerFile .directory groupName 0)
  let (nodeKey, fitNode) ← Action.check fun server => server.nodes.getFitNode
  let groupId ← Action.read fun server => server.groups.nextId
  let newGroup :=
    SharingGroup.init groupId groupName userId rootDirId fitNode.nodeId
  onGroups (Action.modify fun groups => { groups with nextId := groupId + 1 })
  onNodes (Action.modify fun nodes =>
    { nodes with
      nodeList := nodes.nodeList.insert nodeKey
        { fitNode with useCounting := fitNode.useCounting + 1 } })
  let present ← Action.read fun server => server.groups.findGroup groupId
  Action.throwIf (present ≠ none) ErrorCode.errGroupAlreadyExist.fault
  onGroups (Action.modify fun groups => groups.setGroup groupId newGroup)
  pure groupId

/-- `SerializationManager::serialize`. -/
def serialize (server : Server) : Server :=
  { server with
    dataFile := some
      { users := server.users.serialize
        groups := server.groups.serialize
        files := server.files.serialize
        nodes := server.nodes.serialize } }

/-- The managers of the next process: what the data file holds, or as
constructed. -/
def restart (server : Server) (rest : Int → UninitializedUser) : Server :=
  match server.dataFile with
  | none => init
  | some file =>
      { init with
        users := UserManager.deserialize file.users rest
        groups := SharingGroupManager.deserialize file.groups
        files := SharingFileManager.deserialize file.files
        nodes := StorageNodeManager.deserialize file.nodes
        dataFile := some file }

end Server

end ResourceServer
end Spaceless
