import Spaceless.ResourceServer.Rollback
import Spaceless.ResourceServer.Transfer

/-!
# The start of a PutFile transaction

A request to put a fragment starts a transaction that waits for the storage
node, or ends in its first phase.
-/

namespace Spaceless
namespace ResourceServer

open Logic Foundation
open Protocol (Message ReqPutFile)

variable {messageSize : Message → Nat} {connId : Int}
  {package : Package Message}

theorem Advances.unique {server : Server}
    {request other : ReqPutFile} {user user' : User}
    {session session' : PutFileSession}
    (advances : Advances server connId package request user session)
    (advances' : Advances server connId package other user' session') :
    request = other ∧ session = session' := by
  have content := advances.content.symm.trans advances'.content
  cases content
  exact ⟨rfl, Option.some.inj
    (advances.found.symm.trans advances'.found)⟩

theorem onInit_of_putFile {trans : MultiplyPhaseTransaction TransSelf}
    {sessionId : Int} (self : trans.self = .putFile sessionId) :
    onInit trans connId package =
      PutFileTrans.onInit trans connId package := by
  unfold onInit
  rw [self]

theorem onError_app_of_putFile
    {failed : MultiplyPhaseTransaction TransSelf}
    {sessionId : Int} (self : failed.self = .putFile sessionId)
    (connId : Int) (errorInfo : Foundation.ErrorInfo)
    (frame : Frame Server TransSelf Message) :
    ((onError messageSize failed connId errorInfo).after frame).app =
      frame.app := by
  unfold onError
  rw [self]
  rfl

/-- A request to put a fragment starts a transaction that waits, or ends. -/
theorem started_putFile {now serviceId : Int} {worker later : ServerWorker}
    (starts : worker.waitingTransaction package = none)
    (command : package.command = 1031)
    (received : Worker.receive (program messageSize) now connId serviceId
      package worker = some later) :
    Worker.Started (program messageSize) connId package worker (.putFile 0)
      later := by
  refine Worker.started_of_receive starts ?_ ?_ ?_ received
  · rw [command]
    rfl
  · intro trans self
    rw [program_onInit, onInit_of_putFile self]
    refine (PutFileTrans.onInit_run trans connId package _ _).mono ?_ ?_
    · intro _ frame run
      cases run with
      | forwarded advances listed known => simp
    · intro fault frame run
      cases run <;> rfl
  · intro failed errorInfo frame
    exact onError_waits failed connId errorInfo frame

end ResourceServer
end Spaceless
