import Spaceless.Foundation.Answer
import Spaceless.Foundation.Emission

/-!
# Where the messages of a step come from

A message that a step puts on the queue is one of the sends of its turn, and
these are made by the handler that the turn calls or by the error handler.
-/

namespace Spaceless
namespace Foundation

open Logic

namespace Frame

variable {App Self Message α β : Type} {property : Self → Prop}

/-- The handler keeps a property of the members of its transaction. -/
def KeepsSelf (property : Self → Prop)
    (handler : Handler App Self Message α) : Prop :=
  ∀ frame, property frame.self → property (handler.after frame).self

namespace KeepsSelf

theorem check (view : Frame App Self Message → Except Fault α) :
    KeepsSelf property (Action.check view : Handler App Self Message α) :=
  fun _ holds => holds

theorem onApp (action : Action Fault App α) :
    KeepsSelf property (Frame.onApp action : Handler App Self Message α) :=
  fun _ holds => holds

theorem throwIf (condition : Prop) [Decidable condition]
    (fault : Fault) :
    KeepsSelf property
      (Action.throwIf condition fault : Handler App Self Message Unit) := by
  unfold Action.throwIf
  split <;> exact fun _ holds => holds

theorem setSelf {self : Self} (holds : property self) :
    KeepsSelf property
      (Frame.setSelf self : Handler App Self Message Unit) :=
  fun _ _ => holds

theorem serviceSendProtocol (serviceId : Int) (message : Message)
    (bindTransId : Int) :
    KeepsSelf property
      (Frame.serviceSendProtocol serviceId message bindTransId :
        Handler App Self Message Unit) :=
  fun _ holds => holds

theorem serviceWaitNextPhase (serviceId cmd : Int) :
    KeepsSelf property (Frame.serviceWaitNextPhase serviceId cmd :
      Handler App Self Message Unit) :=
  fun _ holds => holds

theorem bind {first : Handler App Self Message α}
    {next : α → Handler App Self Message β}
    (before : KeepsSelf property first)
    (after : ∀ value, KeepsSelf property (next value)) :
    KeepsSelf property (first >>= next) := by
  intro frame holds
  have middle := before frame holds
  unfold Action.after at middle ⊢
  rw [Action.bind_apply]
  split <;> rename_i outcome <;> rw [outcome] at middle
  · exact after _ _ middle
  · exact middle

end KeepsSelf

end Frame

namespace Worker

variable {App Self Message Call : Type}

/-! ## Messages and sends -/

/-- The message on the queue goes where the send goes, and says the same. -/
structure Bears (send : Send Message) (out : OutMessage Message) : Prop where
  connId : out.connId = send.connId
  serviceId : out.serviceId = send.serviceId
  trigger : out.package.triggerPackageId = send.triggerPackageId
  content : out.package.content = some send.message

theorem sendProtocol_bears (protocol : Protocol Message)
    (worker : Worker App Self Message) (send : Send Message) :
    ∃ pushed, (sendProtocol protocol worker send).outQueue =
        worker.outQueue ++ pushed ∧ ∀ out ∈ pushed, Bears send out := by
  unfold sendProtocol
  split
  · exact ⟨[], (List.append_nil _).symm, List.forall_mem_nil _⟩
  · refine ⟨_, rfl, fun out present => ?_⟩
    rw [List.mem_singleton.mp present]
    exact ⟨rfl, rfl, rfl, rfl⟩

theorem sendAll_bears (protocol : Protocol Message)
    (worker : Worker App Self Message) (sends : List (Send Message)) :
    ∃ pushed, (sendAll protocol worker sends).outQueue =
        worker.outQueue ++ pushed ∧
      ∀ out ∈ pushed, ∃ send ∈ sends, Bears send out := by
  induction sends generalizing worker with
  | nil => exact ⟨[], (List.append_nil _).symm, List.forall_mem_nil _⟩
  | cons send sends inductionHypothesis =>
      obtain ⟨first, queue, bears⟩ :=
        sendProtocol_bears protocol worker send
      obtain ⟨rest, longer, others⟩ :=
        inductionHypothesis (sendProtocol protocol worker send)
      refine ⟨first ++ rest, ?_, ?_⟩
      · rw [queue, List.append_assoc] at longer
        exact longer
      · intro out present
        rcases List.mem_append.mp present with old | new
        · exact ⟨send, List.mem_cons_self, bears out old⟩
        · obtain ⟨other, sent, same⟩ := others out new
          exact ⟨other, List.mem_cons_of_mem _ sent, same⟩

section Turn

variable {program : Program App Self Message Call}
  {worker later : Worker App Self Message} {event : Event Message Call}

theorem sending_outgoing (worker : Worker App Self Message)
    (event : Event Message Call) :
    (worker.sending event).outQueue = worker.outQueue ∧
      (worker.sending event).bindList = worker.bindList ∧
      worker.packages.nextId ≤ (worker.sending event).packages.nextId := by
  cases event with
  | receive now connId serviceId package =>
      refine ⟨rfl, rfl, ?_⟩
      change worker.packages.nextId ≤ worker.packages.nextId + 1
      omega
  | internal => exact ⟨rfl, rfl, Int.le_refl _⟩
  | expire => exact ⟨rfl, rfl, Int.le_refl _⟩

/-- What a step puts on the queue was sent in its turn. -/
theorem Turned.bears (turned : Turned program worker event later)
    {pushed : List (OutMessage Message)}
    (queue : later.outQueue = worker.outQueue ++ pushed) :
    ∀ out ∈ pushed, ∃ send ∈ (worker.turn program event).sends,
      Bears send out := by
  obtain ⟨others, longer, all⟩ := sendAll_bears program.protocol
    (worker.sending event) (worker.turn program event).sends
  have same := turned.outQueue
  rw [sent, longer, (sending_outgoing worker event).1, queue] at same
  rw [List.append_cancel_left same]
  exact all

/-- All that a step pushes and binds was sent in its turn. -/
theorem Turned.pushes (turned : Turned program worker event later) :
    Pushes (fun send => send ∈ (worker.turn program event).sends)
      worker later := by
  obtain ⟨queued, bindings, registered⟩ := sending_outgoing worker event
  obtain ⟨counted, bound, pushed, queue, all⟩ :
      Pushes (fun send => send ∈ (worker.turn program event).sends)
        (worker.sending event) (sent program worker event) :=
    Pushes.sendAll _ fun _ present => present
  have kept {packageId transId : Int}
      (found : later.bindList[packageId]? = some transId) :
      (sent program worker event).bindList[packageId]? = some transId := by
    rw [turned.bindList] at found
    split at found
    · exact found
    · exact Table.lookup_of_lookup_erase found
  rw [bindings] at bound
  constructor
  · rw [turned.nextId]
    omega
  · intro packageId transId found
    refine (bound packageId transId (kept found)).imp_right ?_
    rintro ⟨range, new⟩
    rw [turned.nextId]
    exact ⟨by omega, new⟩
  · refine ⟨pushed, by rw [turned.outQueue, queue, queued], ?_⟩
    intro out present
    obtain ⟨send, sent, carries⟩ := all out present
    have fresh := carries.fresh
    refine ⟨send, sent, carries.content, carries.trigger,
      carries.serviceId, ?_, ?_⟩
    · rw [turned.nextId]
      omega
    · intro transId found
      rw [← bindings]
      exact carries.bound transId (kept found)

/-! ## Sends and handlers -/

/-- The turn of the transaction that a package starts. -/
theorem turn_of_starts {now connId serviceId : Int}
    {package : Package Message} {factory : Self}
    (starts : worker.waitingTransaction package = none)
    (registered : program.findTransaction package.command =
      some (.multiplyPhase factory)) :
    worker.turn program (.receive now connId serviceId package) =
      memberTurn program connId worker.app
        (MultiplyPhaseTransaction.init worker.nextTransId factory connId
          package.triggerSource)
        (program.onInit
          (MultiplyPhaseTransaction.init worker.nextTransId factory connId
            package.triggerSource) connId package) := by
  simp only [turn, receiveTurn, starts, registered]

/-- The sends of a member are its own, or those of the error handler. -/
theorem mem_memberCalls {connId : Int} {app : App}
    {trans : MultiplyPhaseTransaction Self}
    {handler : Handler App Self Message Unit} {result : Except Fault Unit}
    {frame : Frame App Self Message} {send : Send Message}
    (ran : handler (startFrame app trans.self) = (result, frame))
    (called : send ∈ (memberCalls program connId app trans handler).1) :
    send ∈ frame.sends ∨
      ∃ failed errorInfo app, send ∈ ((program.onError failed connId
        errorInfo).after (startFrame app failed.self)).sends := by
  unfold memberCalls at called
  rw [ran] at called
  dsimp only at called
  split at called
  · split at called
    · rename_i errorInfo info
      refine (List.mem_append.mp called).imp_right fun last => ?_
      refine ⟨afterWaits trans frame.self frame.waits, errorInfo, frame.app,
        ?_⟩
      rw [afterWaits, foldl_waitNextPhase_self]
      exact last
    · exact Or.inl called
  · exact Or.inl called

theorem mem_onePhaseSends {connId : Int} {app : App}
    {package : Package Message} {handler : Handler App Unit Message Unit}
    {send : Send Message}
    (called : send ∈ onePhaseSends program.protocol connId app package
      handler) :
    send ∈ (handler.after (startFrame app ())).sends ∨
      ∃ errorInfo, send.message = program.protocol.rspError errorInfo := by
  unfold onePhaseSends at called
  dsimp only at called
  split at called
  · split at called
    · rename_i errorInfo info
      refine (List.mem_append.mp called).imp_right fun last => ?_
      rw [List.mem_singleton.mp last]
      exact ⟨errorInfo, rfl⟩
    · exact Or.inl called
  · exact Or.inl called

/-- The data after a package that starts a one-phase handler. -/
theorem onePhase_post {post : App → Prop} {now connId serviceId : Int}
    {package : Package Message}
    {handler : Int → Int → Package Message → Handler App Unit Message Unit}
    (starts : worker.waitingTransaction package = none)
    (registered : program.findTransaction package.command =
      some (.onePhase handler))
    (leads : Frame.Leads (handler now connId package)
      (startFrame worker.app ()) post)
    (received : receive program now connId serviceId package worker =
      some later) : post later.app := by
  cases received_of_receive received with
  | unknown _ unregistered =>
      rw [registered] at unregistered
      cases unregistered
  | onePhase _ same call =>
      cases registered.symm.trans same
      rw [removePackage_app]
      refine callOnePhase_post ?_ call
      exact leads
  | multiplyPhase _ other call =>
      cases registered.symm.trans other
  | foreign answers mismatch =>
      rw [starts] at answers
      cases answers
  | active answers fits call =>
      rw [starts] at answers
      cases answers

/-! ## Registered transactions -/

/-- Members of a transaction that waits once leave it as it was registered. -/
theorem WaitsOnce.registered_of_step (once : WaitsOnce program)
    (stepped : step program worker event = some later) {transId : Int}
    {trans : MultiplyPhaseTransaction Self}
    (found : later.transList[transId]? = some trans)
    (known : transId < worker.nextTransId) :
    worker.transList[transId]? = some trans := by
  cases event with
  | receive now connId serviceId package =>
      rcases once.registered_of_receive stepped found with old | ⟨new, -⟩
      · exact old
      · omega
  | internal call =>
      have called : callInternal program call worker = some later := stepped
      rw [eq_of_callInternal called] at found
      exact found
  | expire now timerId => exact once.registered_of_expire stepped found

end Turn

end Worker

end Foundation
end Spaceless
