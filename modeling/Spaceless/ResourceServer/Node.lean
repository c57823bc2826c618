import Spaceless.Logic.Table
import Spaceless.ResourceServer.Error

/-!
# Storage nodes

`StorageNodeManager` knows the nodes by id; a new group goes to a node that
no group uses, or else to one of the least load.
-/

namespace Spaceless
namespace ResourceServer

open Logic Foundation

structure StorageNode where
  nodeId : Int
  ip : Text
  port : Int
  serviceId : Int
  useCounting : Int
  deriving DecidableEq

structure StorageNodeManager where
  nodeList : Table Int StorageNode
  nextId : Int
  deriving DecidableEq

namespace StorageNodeManager

/-- The manager as constructed. -/
def init : StorageNodeManager where
  nodeList := ∅
  nextId := 1

/-- The part of `register_node` that runs on the worker, after the network
side registered the service. -/
def registerNode (manager : StorageNodeManager)
    (ip : Text) (port serviceId : Int) : StorageNodeManager :=
  { nodeList := manager.nodeList.insertIfNew manager.nextId
      { nodeId := manager.nextId, ip := ip, port := port
        serviceId := serviceId, useCounting := 0 }
    nextId := manager.nextId + 1 }

def findNode (manager : StorageNodeManager) (nodeId : Int) :
    Option StorageNode :=
  manager.nodeList[nodeId]?

def getNode (manager : StorageNodeManager) (nodeId : Int) :
    Except Fault StorageNode :=
  match manager.findNode nodeId with
  | some node => .ok node
  | none => .error ErrorCode.errNodeNotExist.fault

/-- `get_fit_node` with the key of the node: a free node, or else the first
one of the lowest load.  Without a node it reads the end of the map. -/
def getFitNode (manager : StorageNodeManager) :
    Except Fault (Int × StorageNode) :=
  match manager.nodeList.findIf fun node => node.useCounting == 0 with
  | some entry => .ok entry
  | none =>
      match manager.nodeList.toList with
      | [] => .error .undefined
      | first :: rest =>
          .ok (rest.foldl (fun lowLoad entry =>
            if entry.2.useCounting < lowLoad.2.useCounting then entry
            else lowLoad) first)

/-- The last part of `deserialize`: the service of a node that was read back
is registered. -/
def setService (nodeId serviceId : Int) :
    Action Fault StorageNodeManager Unit := fun manager =>
  match manager.getNode nodeId with
  | .error fault => (.error fault, manager)
  | .ok node =>
      (.ok (),
        { manager with
          nodeList := manager.nodeList.insert nodeId
            { node with serviceId := serviceId } })

/-- What `StorageNodeManager::serialize` writes; the service id of a node is
not written. -/
structure Object where
  nextId : Int
  nodeList : List (Int × StorageNode)
  deriving DecidableEq

def serialize (manager : StorageNodeManager) : Object where
  nextId := manager.nextId
  nodeList := manager.nodeList.toList.map fun entry =>
    (entry.2.nodeId, { entry.2 with serviceId := 0 })

/-- `deserialize` into a fresh manager, before the services are registered. -/
def deserialize (object : Object) : StorageNodeManager where
  nodeList := Table.insertAll ∅ object.nodeList
  nextId := object.nextId

end StorageNodeManager

end ResourceServer
end Spaceless
