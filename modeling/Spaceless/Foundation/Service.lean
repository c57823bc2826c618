import Spaceless.Logic.Machine
import Spaceless.Logic.Table
import Spaceless.Foundation.Exception

/-!
# Network services

`NetworkServiceManager` opens the connection of a service when it is asked for
and keeps two maps between services and connections.  A lost connection is
replaced at the next request; the maps are not touched before.
-/

namespace Spaceless
namespace Foundation

open Logic

structure NetworkService where
  serviceId : Int
  ip : Text
  port : Int
  deriving DecidableEq

structure NetworkServiceManager where
  serviceList : Table Int NetworkService
  connList : Table Int Int
  connServiceList : Table Int Int
  nextId : Int

/-- The connections as the service manager sees them: the identifiers that
were given so far, and those of open connections. -/
structure OpenConnections where
  given : List Int
  opened : List Int

/-- The service manager with the connections. -/
structure ServiceSide where
  manager : NetworkServiceManager
  connections : OpenConnections

inductive ServiceFault where
  | errNetworkServiceNotExist
  | errNetworkServiceAlreadyExist
  /-- The socket of a new connection cannot be opened. -/
  | refused
  deriving DecidableEq

namespace OpenConnections

/-- A new connection, with the identifier that it receives unless the socket
cannot be opened. -/
def registerConnection (attempt : Option Int) (connections : OpenConnections) :
    Except ServiceFault Int × OpenConnections :=
  match attempt with
  | none => (.error .refused, connections)
  | some connId =>
      (.ok connId,
        { given := connId :: connections.given
          opened := connId :: connections.opened })

/-- A closing connection is not found any more. -/
def removeConnection (connId : Int) (connections : OpenConnections) :
    OpenConnections :=
  { connections with
    opened := connections.opened.filter fun other => other ≠ connId }

/-- `find_connection` gives a valid connection. -/
def isValid (connId : Int) (connections : OpenConnections) : Bool :=
  decide (connId ∈ connections.opened)

end OpenConnections

namespace NetworkServiceManager

def init : NetworkServiceManager where
  serviceList := ∅
  connList := ∅
  connServiceList := ∅
  nextId := 1

def findService (manager : NetworkServiceManager) (serviceId : Int) :
    Option NetworkService :=
  manager.serviceList[serviceId]?

def findServiceByAddress (manager : NetworkServiceManager)
    (ip : Text) (port : Int) : Option NetworkService :=
  (manager.serviceList.findIf fun service =>
    service.ip == ip && service.port == port).map Prod.snd

def findServiceByConnection (manager : NetworkServiceManager)
    (connId : Int) : Option NetworkService :=
  manager.connServiceList[connId]?.bind manager.findService

def registerService (ip : Text) (port : Int)
    (manager : NetworkServiceManager) :
    Except ServiceFault NetworkService × NetworkServiceManager :=
  match manager.findServiceByAddress ip port with
  | some _ => (.error .errNetworkServiceAlreadyExist, manager)
  | none =>
      let service : NetworkService :=
        { serviceId := manager.nextId, ip := ip, port := port }
      let raised := { manager with nextId := manager.nextId + 1 }
      match manager.serviceList[service.serviceId]? with
      | some _ => (.error .errNetworkServiceAlreadyExist, raised)
      | none =>
          (.ok service,
            { raised with
              serviceList :=
                manager.serviceList.insertIfNew service.serviceId service })

end NetworkServiceManager

namespace ServiceSide

def init : ServiceSide where
  manager := NetworkServiceManager.init
  connections := { given := [], opened := [] }

/-- The service goes; the two maps keep what they know of it. -/
def removeService (serviceId : Int) (side : ServiceSide) : ServiceSide where
  manager :=
    { side.manager with
      serviceList := side.manager.serviceList.erase serviceId }
  connections :=
    match side.manager.connList[serviceId]? with
    | none => side.connections
    | some connId => side.connections.removeConnection connId

/-- The connection of a service, opened again where it was lost. -/
def getConnectionId (serviceId : Int) (attempt : Option Int)
    (side : ServiceSide) : Except ServiceFault Int × ServiceSide :=
  match side.manager.findService serviceId with
  | none => (.error .errNetworkServiceNotExist, side)
  | some _ =>
      match side.manager.connList[serviceId]? with
      | none =>
          match side.connections.registerConnection attempt with
          | (.error fault, connections) =>
              (.error fault, { side with connections := connections })
          | (.ok connId, connections) =>
              (.ok connId,
                { manager :=
                    { side.manager with
                      connList :=
                        side.manager.connList.insertIfNew serviceId connId
                      connServiceList :=
                        side.manager.connServiceList.insertIfNew connId
                          serviceId }
                  connections := connections })
      | some connId =>
          if side.connections.isValid connId then
            (.ok connId, side)
          else
            match side.connections.registerConnection attempt with
            | (.error fault, connections) =>
                (.error fault, { side with connections := connections })
            | (.ok newConnId, connections) =>
                (.ok newConnId,
                  { manager :=
                      { side.manager with
                        connList :=
                          side.manager.connList.insert serviceId newConnId
                        connServiceList :=
                          (side.manager.connServiceList.erase
                            connId).insertIfNew newConnId serviceId }
                    connections := connections })

end ServiceSide

/-- What happens to the service manager and the connections. -/
inductive ServiceEvent where
  | registerService (ip : Text) (port : Int)
  | removeService (serviceId : Int)
  /-- With the connection that a new registration would give. -/
  | getConnectionId (serviceId : Int) (attempt : Option Int)
  | lose (connId : Int)
  /-- A connection without a service. -/
  | connect (connId : Int)

/-- What a call answered. -/
inductive ServiceAnswer where
  | registered (serviceId : Int)
  | removed (serviceId : Int)
  | connected (serviceId connId : Int)
  deriving DecidableEq

namespace ServiceSide

/-- Identifiers of connections are not used again. -/
def step (side : ServiceSide) : ServiceEvent → Option ServiceSide
  | .registerService ip port =>
      some { side with manager := (side.manager.registerService ip port).2 }
  | .removeService serviceId => some (side.removeService serviceId)
  | .getConnectionId serviceId attempt =>
      if ∃ connId ∈ attempt, connId ∈ side.connections.given then none
      else some (side.getConnectionId serviceId attempt).2
  | .lose connId =>
      some { side with
        connections := side.connections.removeConnection connId }
  | .connect connId =>
      if connId ∈ side.connections.given then none
      else some { side with
        connections := (side.connections.registerConnection connId).2 }

def machine : Machine ServiceSide ServiceEvent where
  start := init
  step := step

/-- The answer of a call that did not throw. -/
def answer (side : ServiceSide) (event : ServiceEvent) (_ : ServiceSide) :
    List ServiceAnswer :=
  match event with
  | .registerService ip port =>
      match (side.manager.registerService ip port).1 with
      | .ok service => [.registered service.serviceId]
      | .error _ => []
  | .removeService serviceId => [.removed serviceId]
  | .getConnectionId serviceId attempt =>
      match (side.getConnectionId serviceId attempt).1 with
      | .ok connId => [.connected serviceId connId]
      | .error _ => []
  | .lose _ => []
  | .connect _ => []

/-- The answers of a run, in order. -/
def answers (events : List ServiceEvent) : List ServiceAnswer :=
  machine.outputs answer machine.start events

end ServiceSide

namespace ServiceAnswer

/-- The connections that `get_connection_id` returned for a service. -/
def returned (serviceId : Int) (answers : List ServiceAnswer) : List Int :=
  answers.filterMap fun
    | .connected other connId => if other = serviceId then some connId else none
    | _ => none

/-- The connection that was returned for the service most recently. -/
def mostRecent (serviceId : Int) (answers : List ServiceAnswer) : Option Int :=
  (returned serviceId answers).getLast?

/-- Whether a service was registered by its last registration or removal. -/
def isRegistered (serviceId : Int) (answers : List ServiceAnswer) : Bool :=
  (answers.filterMap fun
    | .registered other => if other = serviceId then some true else none
    | .removed other => if other = serviceId then some false else none
    | .connected _ _ => none).getLast? == some true

end ServiceAnswer

end Foundation
end Spaceless
