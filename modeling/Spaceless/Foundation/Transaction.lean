import Spaceless.Logic.Table
import Spaceless.Foundation.Exception
import Spaceless.Foundation.PackageBuffer

/-!
# Packages, transactions and what their handlers may do

A handler runs on a frame: the data of its program, its own members, and the
calls it makes to the framework, in order.  `Network::send_protocol` and
`wait_next_phase` return nothing to a handler, so recording the calls and
letting the worker carry them out afterwards changes nothing that a handler
can see.
-/

namespace Spaceless
namespace Foundation

open Logic

/-- The command and the id of the package that triggered a transaction. -/
structure PackageTriggerSource where
  command : Int
  packageId : Int
  deriving DecidableEq

/-- The header of a package and its content.  A content is parsed as the one
message type that goes with the command, so it is kept as what parsing it
yields, which is nothing when it does not parse. -/
structure Package (Message : Type) where
  command : Int
  selfPackageId : Int
  triggerPackageId : Int
  content : Option Message
  deriving DecidableEq

namespace Package

variable {Message : Type}

def triggerSource (package : Package Message) : PackageTriggerSource where
  command := package.command
  packageId := package.selfPackageId

/-- `parse_to_protocol` as the message type that `select` recognises. -/
def parseToProtocol {α : Type} (package : Package Message)
    (select : Message → Option α) : Except Fault α :=
  match package.content.bind select with
  | some message => .ok message
  | none => .error
      ErrorCode.errNetworkPackageCannotParseToProtocol.fault

end Package

/-- What the framework asks about the messages of a program: `get_command`,
`get_message_size`, the message `RspError`, and the command of the response
`RspXXX` that goes with the command of a request `ReqXXX`. -/
structure Protocol (Message : Type) where
  command : Message → Int
  messageSize : Message → Nat
  rspError : ErrorInfo → Message
  isRspError : Message → Bool
  responseCommand : Int → Int

/-- The arguments of one call of `Network::send_protocol`. -/
structure Send (Message : Type) where
  connId : Int
  message : Message
  bindTransId : Int
  triggerPackageId : Int
  triggerCmd : Int
  serviceId : Int
  deriving DecidableEq

/-- The arguments of one call of `wait_next_phase`, the timeout in seconds. -/
structure Wait where
  connId : Int
  cmd : Int
  timeout : Int
  serviceId : Int
  deriving DecidableEq

/-- `MultiplyPhaseTransaction::DEFAULT_TIMEOUT`. -/
def defaultTimeout : Int := 1

/-- A transaction in progress: the members of the base class, and in `self`
those of the derived class. -/
structure MultiplyPhaseTransaction (Self : Type) where
  id : Int
  currentPhase : Int
  firstConnId : Int
  firstTriggerSource : PackageTriggerSource
  waitConnId : Int
  waitServiceId : Int
  waitCmd : Int
  isWaiting : Bool
  self : Self
  deriving DecidableEq

namespace MultiplyPhaseTransaction

variable {Self : Type}

/-- The constructor and `pre_on_init`. -/
def init (transId : Int) (self : Self)
    (connId : Int) (source : PackageTriggerSource) :
    MultiplyPhaseTransaction Self where
  id := transId
  currentPhase := 0
  firstConnId := connId
  firstTriggerSource := source
  waitConnId := 0
  waitServiceId := 0
  waitCmd := 0
  isWaiting := false
  self := self

def clearWaitingState (trans : MultiplyPhaseTransaction Self) :
    MultiplyPhaseTransaction Self :=
  { trans with isWaiting := false }

/-- What `wait_next_phase` does to the transaction. -/
def waitNextPhase (trans : MultiplyPhaseTransaction Self) (wait : Wait) :
    MultiplyPhaseTransaction Self :=
  { trans with
    currentPhase := trans.currentPhase + 1
    waitConnId := wait.connId
    waitServiceId := wait.serviceId
    waitCmd := wait.cmd
    isWaiting := true }

/-- The test of `trigger_transaction` on a package that answers to the
transaction. -/
def fits (trans : MultiplyPhaseTransaction Self)
    (connId serviceId command : Int) : Bool :=
  (if trans.waitConnId ≠ 0 then connId == trans.waitConnId
    else serviceId == trans.waitServiceId) &&
    command == trans.waitCmd

end MultiplyPhaseTransaction

/-- What a handler works on. -/
structure Frame (App Self Message : Type) where
  app : App
  self : Self
  sends : List (Send Message)
  waits : List Wait
  deriving DecidableEq

/-- The actions of a member function of a transaction, or of a one-phase
handler (which has no members, and no `wait_next_phase` to call). -/
abbrev Handler (App Self Message : Type) :=
  Action Fault (Frame App Self Message)

namespace Frame

variable {App Self Message α : Type}

/-- Run an action on the data of the program. -/
def onApp (action : Action Fault App α) :
    Handler App Self Message α :=
  Action.zoom Frame.app (fun frame app => { frame with app := app }) action

/-- Set the members of the derived class. -/
def setSelf (self : Self) : Handler App Self Message Unit :=
  Action.modify fun frame => { frame with self := self }

def sendProtocol (send : Send Message) : Handler App Self Message Unit :=
  Action.modify fun frame => { frame with sends := frame.sends ++ [send] }

/-- `Network::send_back_protocol`. -/
def sendBackProtocol (connId : Int) (message : Message)
    (source : PackageTriggerSource) : Handler App Self Message Unit :=
  sendProtocol
    { connId := connId, message := message, bindTransId := 0
      triggerPackageId := source.packageId, triggerCmd := source.command
      serviceId := 0 }

/-- `Network::service_send_protocol`. -/
def serviceSendProtocol (serviceId : Int) (message : Message)
    (bindTransId : Int) : Handler App Self Message Unit :=
  sendProtocol
    { connId := 0, message := message, bindTransId := bindTransId
      triggerPackageId := 0, triggerCmd := 0, serviceId := serviceId }

def serviceWaitNextPhase (serviceId cmd : Int) :
    Handler App Self Message Unit :=
  Action.modify fun frame =>
    { frame with
      waits := frame.waits ++
        [{ connId := 0, cmd := cmd, timeout := defaultTimeout
           serviceId := serviceId }] }

/-- `on_transaction_error`. -/
def onTransactionError (protocol : Protocol Message)
    (connId : Int) (source : PackageTriggerSource) (errorInfo : ErrorInfo) :
    Handler App Self Message Unit :=
  sendBackProtocol connId (protocol.rspError errorInfo) source

theorem onApp_apply (action : Action Fault App α)
    (frame : Frame App Self Message) :
    onApp action frame =
      ((action frame.app).1, { frame with app := (action frame.app).2 }) :=
  rfl

theorem ensures_onApp
    {action : Action Fault App α} {frame : Frame App Self Message}
    {normal : α → Frame App Self Message → Prop}
    {failed : Fault → Frame App Self Message → Prop} :
    Action.Ensures (onApp action) frame normal failed ↔
      Action.Ensures action frame.app
        (fun value app => normal value { frame with app := app })
        (fun fault app => failed fault { frame with app := app }) :=
  Action.ensures_zoom

theorem ensures_setSelf {self : Self} {frame : Frame App Self Message}
    {normal : Unit → Frame App Self Message → Prop}
    {failed : Fault → Frame App Self Message → Prop} :
    Action.Ensures (setSelf self) frame normal failed ↔
      normal () { frame with self := self } := Action.ensures_modify

theorem ensures_sendBackProtocol
    {connId : Int} {message : Message} {source : PackageTriggerSource}
    {frame : Frame App Self Message}
    {normal : Unit → Frame App Self Message → Prop}
    {failed : Fault → Frame App Self Message → Prop} :
    Action.Ensures (sendBackProtocol connId message source) frame
        normal failed ↔
      normal () { frame with
        sends := frame.sends ++
          [{ connId := connId, message := message, bindTransId := 0
             triggerPackageId := source.packageId
             triggerCmd := source.command, serviceId := 0 }] } :=
  Action.ensures_modify

theorem ensures_serviceSendProtocol
    {serviceId : Int} {message : Message} {bindTransId : Int}
    {frame : Frame App Self Message}
    {normal : Unit → Frame App Self Message → Prop}
    {failed : Fault → Frame App Self Message → Prop} :
    Action.Ensures (serviceSendProtocol serviceId message bindTransId) frame
        normal failed ↔
      normal () { frame with
        sends := frame.sends ++
          [{ connId := 0, message := message, bindTransId := bindTransId
             triggerPackageId := 0, triggerCmd := 0
             serviceId := serviceId }] } := Action.ensures_modify

theorem ensures_serviceWaitNextPhase
    {serviceId cmd : Int} {frame : Frame App Self Message}
    {normal : Unit → Frame App Self Message → Prop}
    {failed : Fault → Frame App Self Message → Prop} :
    Action.Ensures (serviceWaitNextPhase serviceId cmd) frame
        normal failed ↔
      normal () { frame with
        waits := frame.waits ++
          [{ connId := 0, cmd := cmd, timeout := defaultTimeout
             serviceId := serviceId }] } := Action.ensures_modify

end Frame

end Foundation
end Spaceless
