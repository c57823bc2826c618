import Spaceless.StorageNode.Reply

/-!
# What the storage node reads out

`RspGetFile` carries the bytes that `on_get_file` read for the request of the
package, and the node never asks for a fragment itself.
-/

namespace Spaceless
namespace StorageNode

open Logic Foundation Protocol Frame

/-- The response holds the fragment that the request asks for. -/
structure Fetched (permits : FileMode → Text → Bool) (storage : Storage)
    (package : Package Message) (response : RspGetFile) : Prop where
  noError : response.error = none
  content : ∃ request, package.content = some (.reqGetFile request) ∧
    response.fragmentIndex = request.fragmentIndex ∧
    (getFragment permits request storage).1 = .ok response.fragmentContent

/-- The send answers to the package, and holds a fragment only when the
package asks for it. -/
structure Serves (permits : FileMode → Text → Bool) (storage : Storage)
    (package : Package Message) (send : Send Message) : Prop where
  trigger : send.triggerPackageId = package.selfPackageId
  noRequest : ∀ request, send.message ≠ .reqGetFile request
  fetched : ∀ response, send.message = .rspGetFile response →
    Fetched permits storage package response

variable {permits : FileMode → Text → Bool} {storage : Storage}
  {package : Package Message}

theorem onGetFile_serves (connId : Int) :
    SendsOnly (Serves permits storage package)
      ((onGetFile permits connId package).after
        (Worker.startFrame storage ())) := by
  suffices ensures : Action.Ensures (onGetFile permits connId package)
      (Worker.startFrame storage ())
      (fun _ => SendsOnly (Serves permits storage package))
      (fun _ => SendsOnly (Serves permits storage package)) from
    Action.ensures_after.mp ensures
  have none_ (app : Storage) : SendsOnly (Serves permits storage package)
      { app := app, self := (), sends := [], waits := [] } := by
    simp [SendsOnly]
  simp only [onGetFile, parse, Action.ensures_bind, Action.ensures_check,
    ensures_onApp, ensures_sendBackProtocol, Worker.startFrame]
  refine ⟨fun request parsed => ?_, fun _ _ => none_ _⟩
  have content : package.content = some (.reqGetFile request) := by
    unfold Package.parseToProtocol at parsed
    split at parsed
    · rename_i selected
      cases parsed
      obtain ⟨message, content, same⟩ := Option.bind_eq_some_iff.mp selected
      rw [content]
      split at same <;> simp_all
    · cases parsed
  refine (Action.ensures_self _ _).mono ?_ fun _ _ _ => none_ _
  intro bytes later got send present
  rw [List.mem_singleton.mp present]
  refine ⟨rfl, fun _ => Message.noConfusion, fun response same => ?_⟩
  cases same
  exact ⟨rfl, request, content, rfl, congrArg Prod.fst got⟩

/-- A registered handler answers to its package. -/
theorem onePhase_serves {now connId : Int}
    {handler : Int → Int → Package Message →
      Handler Storage Unit Message Unit}
    (registered : findTransaction permits package.command =
      some (.onePhase handler)) :
    SendsOnly (Serves permits storage package)
      ((handler now connId package).after
        (Worker.startFrame storage ())) := by
  have serves {handler : Handler Storage Unit Message Unit}
      (emits : Emits (Serves permits storage package) handler) :
      SendsOnly (Serves permits storage package)
        (handler.after (Worker.startFrame storage ())) :=
    emits _ (by simp [SendsOnly, Worker.startFrame])
  have other {message : Message} {connId : Int}
      (plain : ∀ request, message ≠ .reqGetFile request)
      (silent : ∀ response, message ≠ .rspGetFile response) :
      Serves permits storage package
        { connId := connId, message := message, bindTransId := 0
          triggerPackageId := package.selfPackageId
          triggerCmd := package.command, serviceId := 0 } :=
    ⟨rfl, plain, fun response same => absurd same (silent response)⟩
  unfold findTransaction at registered
  split at registered <;> cases registered
  · exact serves (.bind (.check _) fun _ => .bind (.onApp _) fun _ =>
      .sendBackProtocol (other (by simp) (by simp)))
  · exact serves (.bind (.check _) fun _ => .bind (.onApp _) fun _ =>
      .sendBackProtocol (other (by simp) (by simp)))
  · exact serves (.bind (.check _) fun _ => .bind (.onApp _) fun _ =>
      .sendBackProtocol (other (by simp) (by simp)))
  · exact onGetFile_serves connId

/-- What a received package makes the node push. -/
theorem receive_serves {messageSize : Message → Nat}
    {now connId serviceId : Int} {node later : NodeWorker}
    (received : Worker.receive (program permits messageSize) now connId
      serviceId package node = some later) :
    Worker.Pushes (Serves permits node.app package) node later := by
  refine Worker.receive_pushes ?_ ?_ ?_ ?_ ?_ received
  · intro _ handler registered
    exact onePhase_serves registered
  · intro _ factory registered
    obtain ⟨handler, same⟩ := onePhase_of_findTransaction registered
    cases same
  · intro waiting _ _ send present
    cases present
  · intro failed errorInfo app send present
    cases present
  · intro errorInfo
    exact ⟨rfl, by simp [program, protocol], by simp [program, protocol]⟩

end StorageNode
end Spaceless
