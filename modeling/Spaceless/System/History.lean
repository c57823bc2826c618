import Spaceless.Logic.Refinement
import Spaceless.ResourceServer.Transfer
import Spaceless.System.Upload

/-!
# The server's part of a run

What a run of the whole system makes the server do is a run of the server by
itself, so what is known of the runs of the server holds of it.
-/

namespace Spaceless
namespace System

open Logic Foundation ResourceServer
open Protocol (Message)
open StorageNode (FileMode Storage)

namespace Network

/-- What an event of the system is for the server. -/
def serverEvents (network : Network) : Event → List ServerEvent
  | .client now connId package =>
      [.worker (.receive now connId 0 package)]
  | .internal call => [.worker (.internal call)]
  | .expire now timerId => [.worker (.expire now timerId)]
  | .restartServer rest => [.restart rest]
  | .deliverResponse now connId index =>
      (network.responses[index]?.map fun answer =>
        .worker (.receive now connId answer.serviceId
          answer.package)).toList
  | _ => []

variable (messageSize : Message → Nat)
  (permits : FileMode → Text → Bool) (storages : Int → Storage) in
/-- What the server does in a run of the system. -/
def serverHistory (events : List Event) : List ServerEvent :=
  (machine messageSize permits storages).outputs
    (fun network event _ => network.serverEvents event)
    (machine messageSize permits storages).start events

variable {messageSize : Message → Nat}
  {permits : FileMode → Text → Bool} {storages : Int → Storage}
  {network later : Network}

theorem run_worker {event : Worker.Event Message ServerCall}
    (stepped : network.serverStep messageSize event = some later) :
    (serverMachine messageSize).run network.server [.worker event] =
      some later.server := by
  have ran : (serverMachine messageSize).step network.server
      (.worker event) = some later.server :=
    (serverStepped_of_serverStep stepped).stepped
  rw [Machine.run_cons, ran]
  rfl

theorem run_serverEvents {event : Event}
    (stepped : network.step messageSize permits event = some later) :
    (serverMachine messageSize).run network.server
      (network.serverEvents event) = some later.server := by
  cases event with
  | client now connId package => exact run_worker stepped
  | internal call => exact run_worker stepped
  | expire now timerId => exact run_worker stepped
  | restartServer rest =>
      cases stepped
      rfl
  | deliverRequest now connId index =>
      obtain ⟨asked, found, stepped⟩ := Option.bind_eq_some_iff.mp stepped
      obtain ⟨after, received, rfl⟩ := Option.map_eq_some_iff.mp stepped
      rfl
  | deliverResponse now connId index =>
      obtain ⟨answer, found, stepped⟩ := Option.bind_eq_some_iff.mp stepped
      have ran := run_worker stepped
      rw [serverEvents, found]
      exact ran
  | loseRequest index =>
      cases stepped
      rfl
  | loseResponse index =>
      cases stepped
      rfl
  | restartNode serviceId =>
      cases stepped
      rfl

/-- The server runs as it does by itself. -/
theorem reaches_serverHistory {events : List Event}
    (reaches : (machine messageSize permits storages).Reaches events
      network) :
    (serverMachine messageSize).Reaches
      (serverHistory messageSize permits storages events)
      network.server :=
  reaches.project (serverMachine messageSize) Network.server _ rfl
    fun _ _ _ => run_serverEvents

end Network

end System
end Spaceless
