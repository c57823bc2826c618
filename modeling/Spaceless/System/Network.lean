import Spaceless.ResourceServer.Transaction
import Spaceless.StorageNode.Reply
import Mathlib.Logic.Function.Basic

/-!
# The resource server and its storage nodes

The worker of the server, one worker for each service, and the messages in
flight between them.  Any message in flight can be delivered or lost at any
time.  What the clients send is the input of the system; what the server
sends back to them has no effect on it.
-/

namespace Spaceless
namespace System

open Logic Foundation Protocol ResourceServer StorageNode

/-- A fragment of an upload: a put session of the server and an index. -/
structure Fragment where
  sessionId : Int
  index : Int
  deriving DecidableEq

/-- A message in flight between the server and the node of a service.  The
connection of a request is gone when the server was restarted since.  The
fragment is that of the client request which made the server send the
request, and is only recorded for the reader of the system. -/
structure InFlight where
  serviceId : Int
  package : Package Message
  connected : Bool
  fragment : Option Fragment
  deriving DecidableEq

/-- The processes and the network.  `uploads` and `accepted` only record: the
fragment that a PutFile transaction was started for, and the fragments that a
node accepted in `on_put_file`, both since the server started. -/
structure Network where
  server : ServerWorker
  nodes : Int → NodeWorker
  requests : List InFlight
  responses : List InFlight
  uploads : Table Int Fragment
  accepted : List Fragment

inductive Event
  | client (now connId : Int) (package : Package Message)
  | internal (call : ServerCall)
  | expire (now timerId : Int)
  | restartServer (rest : Int → UninitializedUser)
  | deliverRequest (now connId : Int) (index : Nat)
  | deliverResponse (now connId : Int) (index : Nat)
  | loseRequest (index : Nat)
  | loseResponse (index : Nat)
  | restartNode (serviceId : Int)

/-- The fragment that a package asks the server to put. -/
def fragmentOf (package : Package Message) : Option Fragment :=
  if package.command = 1031 then
    match package.content with
    | some (.reqPutFile request) =>
        some { sessionId := request.sessionId, index := request.fragmentIndex }
    | _ => none
  else none

/-- The fragment of an event of the server. -/
def eventFragment : Worker.Event Message ServerCall → Option Fragment
  | .receive _ _ _ package => fragmentOf package
  | _ => none

/-- What a worker pushed since. -/
def pushedSince {App Self : Type} (before after : Worker App Self Message) :
    List (OutMessage Message) :=
  after.outQueue.drop before.outQueue.length

theorem carries_of_mem_pushedSince {App Self : Type}
    {before after : Worker App Self Message} {allowed : Send Message → Prop}
    (pushes : Worker.Pushes allowed before after)
    {out : OutMessage Message} (present : out ∈ pushedSince before after) :
    ∃ send, allowed send ∧ Worker.Carries before after send out := by
  obtain ⟨pushed, queue, all⟩ := pushes.queue
  rw [pushedSince, queue, List.drop_left] at present
  exact all out present

/-- A message of the server to a service. -/
def request (fragment : Option Fragment) (out : OutMessage Message) :
    InFlight where
  serviceId := out.serviceId
  package := out.package
  connected := true
  fragment :=
    match out.package.content with
    | some (.reqPutFile _) => fragment
    | _ => none

/-- The answer of a node. -/
def response (asked : InFlight) (out : OutMessage Message) : InFlight where
  serviceId := asked.serviceId
  package := out.package
  connected := true
  fragment := asked.fragment

namespace Network

-- the size of a message, and what `fopen` can open on the nodes
variable (messageSize : Message → Nat)
variable (permits : FileMode → Text → Bool)

/-- The processes as they start, with what is stored on each node. -/
def init (storages : Int → Storage) : Network where
  server := Worker.init Server.init
  nodes := fun serviceId => Worker.init (storages serviceId)
  requests := []
  responses := []
  uploads := ∅
  accepted := []

/-- A step of the worker of the server. -/
def serverStep (network : Network)
    (event : Worker.Event Message ServerCall) : Option Network :=
  (Worker.step (ResourceServer.program messageSize) network.server event).map
    fun server =>
      { network with
        server := server
        requests := network.requests ++
          ((pushedSince network.server server).filter fun out =>
            out.serviceId ≠ 0).map (request (eventFragment event))
        uploads :=
          match eventFragment event with
          | some fragment =>
              network.uploads.insert network.server.nextTransId fragment
          | none => network.uploads.erase network.server.nextTransId }

/-- The node of a service processes a message. -/
def nodeStep (network : Network) (now connId : Int) (asked : InFlight) :
    Option Network :=
  let node := network.nodes asked.serviceId
  (Worker.receive (StorageNode.program permits messageSize) now connId 0
    asked.package node).map fun after =>
      { network with
        nodes := Function.update network.nodes asked.serviceId after
        responses := network.responses ++
          if asked.connected then
            (pushedSince node after).map (response asked)
          else []
        accepted :=
          if accepts permits node.app asked.package then
            asked.fragment.toList ++ network.accepted
          else network.accepted }

/-- The server is started again: its connections are closed, and the ids of
its sessions and transactions start anew. -/
def restartServer (network : Network) (rest : Int → UninitializedUser) :
    Network where
  server := Worker.init (network.server.app.restart rest)
  nodes := network.nodes
  requests := network.requests.map fun asked =>
    { asked with connected := false, fragment := none }
  responses := []
  uploads := ∅
  accepted := []

/-- The node is started again on what it has stored. -/
def restartNode (network : Network) (serviceId : Int) : Network :=
  let files := (network.nodes serviceId).app.files
  { network with
    nodes := Function.update network.nodes serviceId
      (Worker.init (Storage.init files.sharingPath files.files)) }

def step (network : Network) : Event → Option Network
  | .client now connId package =>
      serverStep messageSize network (.receive now connId 0 package)
  | .internal call => serverStep messageSize network (.internal call)
  | .expire now timerId =>
      serverStep messageSize network (.expire now timerId)
  | .restartServer rest => some (network.restartServer rest)
  | .deliverRequest now connId index =>
      network.requests[index]?.bind fun asked =>
        nodeStep messageSize permits
          { network with requests := network.requests.eraseIdx index }
          now connId asked
  | .deliverResponse now connId index =>
      network.responses[index]?.bind fun answer =>
        serverStep messageSize
          { network with responses := network.responses.eraseIdx index }
          (.receive now connId answer.serviceId answer.package)
  | .loseRequest index => some
      { network with requests := network.requests.eraseIdx index }
  | .loseResponse index => some
      { network with responses := network.responses.eraseIdx index }
  | .restartNode serviceId => some (network.restartNode serviceId)

/-- The system from the first start of all processes on. -/
def machine (storages : Int → Storage) : Machine Network Event where
  start := init storages
  step := step messageSize permits

end Network

end System
end Spaceless
