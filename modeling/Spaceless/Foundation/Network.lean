import Spaceless.Foundation.Opening
import Spaceless.Foundation.Service

/-!
# The network side

The thread of the network owns the connections.  It takes messages from the
out queue, which name a connection or a service, and passes their packages to
connections; a service gets its connection when it is first asked for.  What
the sockets do is part of the events.
-/

namespace Spaceless
namespace Foundation
namespace Details

open Crypto Logic

/-- `ActorMessage::NetworkMsg`, as far as the network side reads it. -/
structure NetworkMsg where
  connId : Int
  serviceId : Int
  packageId : Int
  deriving DecidableEq

/-- The functions that other threads have the network side call. -/
inductive Delegation
  | registerService (ip : Text) (port : Int)
  | removeService (serviceId : Int)
  deriving DecidableEq

inductive ActorMessage
  | network (msg : NetworkMsg)
  | delegate (delegation : Delegation)
  deriving DecidableEq

/-- The managers of the network thread.  The in queue is the list of all
packages that were pushed. -/
structure NetworkSide (PrivateKey : Type) where
  packages : PackageManager
  inQueue : List Int
  outQueue : List ActorMessage
  connList : Table Int (NetworkConnectionImpl PrivateKey)
  nextId : Int
  services : NetworkServiceManager

namespace NetworkSide

variable {PublicKey PrivateKey : Type}

def init : NetworkSide PrivateKey where
  packages := .init
  inQueue := []
  outQueue := []
  connList := ∅
  nextId := 1
  services := .init

/-- A connection with the managers that it uses. -/
def connectionState (side : NetworkSide PrivateKey)
    (connection : NetworkConnectionImpl PrivateKey) :
    ConnectionState PrivateKey where
  packages := side.packages
  inQueue := side.inQueue
  connection := connection

def findConnection (side : NetworkSide PrivateKey) (connId : Int) :
    Option (NetworkConnectionImpl PrivateKey) :=
  side.connList[connId]?

def findOpenConnection (side : NetworkSide PrivateKey) (connId : Int) :
    Option (NetworkConnectionImpl PrivateKey) :=
  (side.findConnection connId).filter fun connection => !connection.isClosing

/-- A connection changes; one that is destroyed leaves the list. -/
def visit (side : NetworkSide PrivateKey) (connId : Int)
    (connection : NetworkConnectionImpl PrivateKey)
    (change : ConnectionState PrivateKey → ConnectionState PrivateKey) :
    NetworkSide PrivateKey :=
  let later := change (side.connectionState connection)
  { side with
    packages := later.packages
    inQueue := later.inQueue
    connList :=
      if later.connection.destroyed = true then side.connList.erase connId
      else side.connList.insert connId later.connection }

/-- The constructor of a connection. -/
def create (side : NetworkSide PrivateKey)
    (creation : ConnectionState.Creation PrivateKey) :
    NetworkSide PrivateKey :=
  let created := ConnectionState.create side.packages side.inQueue creation
  { side with
    packages := created.packages
    inQueue := created.inQueue
    connList := side.connList.insertIfNew side.nextId created.connection
    nextId := side.nextId + 1 }

/-- An operation of the network side, which may throw. -/
abbrev Operation (PrivateKey α : Type) : Type :=
  Action ServiceFault (NetworkSide PrivateKey) α

/-- A connection to an address, if the socket can be opened. -/
def registerConnection (opens : Bool) : Operation PrivateKey Int := fun side =>
  if opens = true then (.ok side.nextId, side.create .active)
  else (.error .refused, side)

/-- `NetworkManagerImpl::remove_connection`. -/
def removeConnection (side : NetworkSide PrivateKey) (connId : Int) :
    NetworkSide PrivateKey :=
  match side.findConnection connId with
  | none => side
  | some connection => side.visit connId connection ConnectionState.close

/-! ## Services -/

/-- A service gets its first connection. -/
def bindService (serviceId connId : Int) (side : NetworkSide PrivateKey) :
    NetworkSide PrivateKey :=
  { side with services := { side.services with
    connList := side.services.connList.insertIfNew serviceId connId
    connServiceList :=
      side.services.connServiceList.insertIfNew connId serviceId } }

/-- A service gets a connection in place of a lost one. -/
def rebindService (serviceId connId newConnId : Int)
    (side : NetworkSide PrivateKey) : NetworkSide PrivateKey :=
  { side with services := { side.services with
    connList := side.services.connList.insert serviceId newConnId
    connServiceList := (side.services.connServiceList.erase
      connId).insertIfNew newConnId serviceId } }

/-- `NetworkServiceManager::get_connection_id`. -/
def getConnectionId (serviceId : Int) (opens : Bool) :
    Operation PrivateKey Int := fun side =>
  match side.services.findService serviceId with
  | none => (.error .errNetworkServiceNotExist, side)
  | some _ =>
      match side.services.connList[serviceId]? with
      | none =>
          (do
            let connId ← registerConnection opens
            Action.modify (bindService serviceId connId)
            pure connId) side
      | some connId =>
          match side.findOpenConnection connId with
          | some _ => (.ok connId, side)
          | none =>
              (do
                let newConnId ← registerConnection opens
                Action.modify (rebindService serviceId connId newConnId)
                pure newConnId) side

/-- `NetworkServiceManager::remove_service`. -/
def removeService (serviceId : Int) (side : NetworkSide PrivateKey) :
    NetworkSide PrivateKey :=
  let closed :=
    match side.services.connList[serviceId]? with
    | none => side
    | some connId => side.removeConnection connId
  { closed with services := { closed.services with
    serviceList := closed.services.serviceList.erase serviceId } }

/-- A function of another thread is called. -/
def callFunction : Delegation →
    NetworkSide PrivateKey → NetworkSide PrivateKey
  | .registerService ip port => fun side =>
      { side with services := (side.services.registerService ip port).2 }
  | .removeService serviceId => removeService serviceId

/-! ## The out queue -/

section OutQueue

variable (crypto : CryptoLibrary PublicKey PrivateKey)
  (socket : Int → SendResult)

/-- The second half of `NetworkReactor::send_package`.  A package without an
open connection is removed. -/
def passPackage (connId packageId : Int) (side : NetworkSide PrivateKey) :
    NetworkSide PrivateKey :=
  match side.findOpenConnection connId, side.packages.findPackage packageId with
  | some connection, some _ =>
      side.visit connId connection
        (ConnectionState.sendPackage crypto socket packageId).after
  | _, _ => { side with packages := side.packages.removePackage packageId }

/-- `NetworkReactor::send_package`. -/
def sendPackage (opens : Bool) (msg : NetworkMsg) :
    Operation PrivateKey Unit := do
  let connId ←
    if msg.connId = 0 then getConnectionId msg.serviceId opens
    else pure msg.connId
  Action.modify (passPackage crypto socket connId msg.packageId)

/-- One iteration of `process_out_message`, after the message was taken. -/
def processMessage (opens : Bool) (message : ActorMessage)
    (side : NetworkSide PrivateKey) : NetworkSide PrivateKey :=
  match message with
  | .network msg => (sendPackage crypto socket opens msg).after side
  | .delegate delegation => callFunction delegation side

end OutQueue

end NetworkSide

/-! ## Events -/

/-- What happens to the network side, with what the sockets do. -/
inductive NetworkEvent (PrivateKey : Type)
  /-- Another thread registers a package and sends it. -/
  | sendMessage (connId serviceId : Int) (package : PackageEntry)
  | delegate (delegation : Delegation)
  /-- A worker is done with a package of the in queue. -/
  | handled (packageId : Int)
  | processOutMessage (opens : Bool) (socket : Int → SendResult)
  | accept (setting : Option SecuritySetting) (keyPair : RsaKeyPair PrivateKey)
      (socket : Int → SendResult)
  | connect (opens : Bool)
  | receive (connId : Int) (random : Random) (buffer : PackageBuffer)
      (socket : Int → SendResult)
  | invalidVersion (connId command : Int) (socket : Int → SendResult)
  | onWritable (connId : Int) (result : SendResult)
  /-- A call of `close`, by the connection itself or from outside. -/
  | close (connId : Int)
  /-- The peer has closed, or the socket has an error. -/
  | closeWithoutWaiting (connId : Int)

namespace NetworkSide

variable {PublicKey PrivateKey : Type}
  (crypto : CryptoLibrary PublicKey PrivateKey)

/-- A connection that is closing does not read. -/
def step (side : NetworkSide PrivateKey) :
    NetworkEvent PrivateKey → Option (NetworkSide PrivateKey)
  | .sendMessage connId serviceId package =>
      some { side with
        packages := side.packages.registerPackage package
        outQueue := side.outQueue ++
          [.network ⟨connId, serviceId, side.packages.nextId⟩] }
  | .delegate delegation =>
      some { side with outQueue := side.outQueue ++ [.delegate delegation] }
  | .handled packageId =>
      if packageId ∈ side.inQueue then
        some { side with packages := side.packages.removePackage packageId }
      else none
  | .processOutMessage opens socket =>
      match side.outQueue with
      | [] => none
      | message :: rest =>
          some (processMessage crypto socket opens message
            { side with outQueue := rest })
  | .accept setting keyPair socket =>
      some (side.create (.passive setting keyPair socket))
  | .connect opens => some ((registerConnection opens).after side)
  | .receive connId random buffer socket =>
      (side.findOpenConnection connId).map fun connection =>
        side.visit connId connection
          (ConnectionState.onReceiveCompletePackage crypto socket random
            buffer).after
  | .invalidVersion connId command socket =>
      (side.findOpenConnection connId).map fun connection =>
        side.visit connId connection
          (ConnectionState.processCheckPackageVersion socket command).after
  | .onWritable connId result =>
      (side.findConnection connId).map fun connection =>
        side.visit connId connection (ConnectionState.onWritable result).after
  | .close connId => some (side.removeConnection connId)
  | .closeWithoutWaiting connId =>
      (side.findConnection connId).map fun connection =>
        side.visit connId connection ConnectionState.destroy

def machine : Machine (NetworkSide PrivateKey) (NetworkEvent PrivateKey) where
  start := init
  step := step crypto

end NetworkSide

end Details
end Foundation
end Spaceless
