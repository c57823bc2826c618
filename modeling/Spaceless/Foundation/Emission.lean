import Spaceless.Foundation.Outcome

/-!
# What handlers send

`Emits` says that all calls of `Network::send_protocol` that a handler makes
are allowed, whatever frame it starts from and however it ends; its rules
follow the statements of a handler.
-/

namespace Spaceless
namespace Foundation

open Logic

namespace Frame

variable {App Self Message α β : Type} {allowed : Send Message → Prop}

/-- All sends so far are allowed. -/
def SendsOnly (allowed : Send Message → Prop)
    (frame : Frame App Self Message) : Prop :=
  ∀ send ∈ frame.sends, allowed send

/-- The handler only makes sends that are allowed. -/
def Emits (allowed : Send Message → Prop)
    (handler : Handler App Self Message α) : Prop :=
  ∀ frame, SendsOnly allowed frame → SendsOnly allowed (handler.after frame)

namespace Emits

theorem pure (value : α) :
    Emits allowed (pure value : Handler App Self Message α) :=
  fun _ sent => sent

theorem throw (fault : Fault) :
    Emits allowed (throw fault : Handler App Self Message α) :=
  fun _ sent => sent

theorem check (view : Frame App Self Message → Except Fault α) :
    Emits allowed (Action.check view : Handler App Self Message α) :=
  fun _ sent => sent

theorem read (view : Frame App Self Message → α) :
    Emits allowed (Action.read view : Handler App Self Message α) :=
  fun _ sent => sent

theorem onApp (action : Action Fault App α) :
    Emits allowed (Frame.onApp action : Handler App Self Message α) :=
  fun _ sent => sent

theorem setSelf (self : Self) :
    Emits allowed (Frame.setSelf self : Handler App Self Message Unit) :=
  fun _ sent => sent

theorem throwIf (condition : Prop) [Decidable condition]
    (fault : Fault) :
    Emits allowed
      (Action.throwIf condition fault : Handler App Self Message Unit) := by
  unfold Action.throwIf
  split
  · exact throw fault
  · exact pure ()

theorem serviceWaitNextPhase (serviceId cmd : Int) :
    Emits allowed (Frame.serviceWaitNextPhase serviceId cmd :
      Handler App Self Message Unit) :=
  fun _ sent => sent

theorem sendProtocol {send : Send Message} (permitted : allowed send) :
    Emits allowed
      (Frame.sendProtocol send : Handler App Self Message Unit) := by
  intro frame sent other present
  rcases List.mem_append.mp present with old | new
  · exact sent other old
  · rw [List.mem_singleton.mp new]
    exact permitted

theorem sendBackProtocol {connId : Int} {message : Message}
    {source : PackageTriggerSource}
    (permitted : allowed
      { connId := connId, message := message, bindTransId := 0
        triggerPackageId := source.packageId, triggerCmd := source.command
        serviceId := 0 }) :
    Emits allowed (Frame.sendBackProtocol connId message source :
      Handler App Self Message Unit) :=
  sendProtocol permitted

theorem serviceSendProtocol {serviceId : Int} {message : Message}
    {bindTransId : Int}
    (permitted : allowed
      { connId := 0, message := message, bindTransId := bindTransId
        triggerPackageId := 0, triggerCmd := 0, serviceId := serviceId }) :
    Emits allowed (Frame.serviceSendProtocol serviceId message bindTransId :
      Handler App Self Message Unit) :=
  sendProtocol permitted

theorem bind {first : Handler App Self Message α}
    {next : α → Handler App Self Message β}
    (before : Emits allowed first)
    (after : ∀ value, Emits allowed (next value)) :
    Emits allowed (first >>= next) := by
  intro frame sent
  have middle := before frame sent
  unfold Action.after at middle ⊢
  rw [Action.bind_apply]
  split <;> rename_i outcome <;> rw [outcome] at middle
  · exact after _ _ middle
  · exact middle

end Emits

end Frame

end Foundation
end Spaceless
