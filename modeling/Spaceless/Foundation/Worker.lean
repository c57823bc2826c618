import Spaceless.Logic.Machine
import Spaceless.Foundation.Transaction

/-!
# The worker

The worker takes one network message, one internal call (a delegation or a
frequent timer) or one expired timer at a time.  A network message starts a
transaction or answers to a waiting one.  A step has no successor when the
process aborts in an assertion or C++ leaves its behaviour undefined.
-/

namespace Spaceless
namespace Foundation

open Logic

/-- What a command is registered with.  A one-phase handler is given the
reading of the clock, the connection and the package. -/
inductive Transaction (App Self Message : Type)
  | onePhase
      (handler : Int → Int → Package Message → Handler App Unit Message Unit)
  | multiplyPhase (factory : Self)

/-- A program on the worker: its registered commands, the virtual functions
of its multiply-phase transactions, and the internal calls it makes of the
worker. -/
structure Program (App Self Message Call : Type) where
  protocol : Protocol Message
  findTransaction : Int → Option (Transaction App Self Message)
  onInit : MultiplyPhaseTransaction Self → Int → Package Message →
    Handler App Self Message Unit
  onActive : MultiplyPhaseTransaction Self → Int → Package Message →
    Handler App Self Message Unit
  onError : MultiplyPhaseTransaction Self → Int → ErrorInfo →
    Handler App Self Message Unit
  internal : Call → Action Fault App Unit

/-- `PackageManager`: the packages that wait for the worker.  A package that
was pushed to the network side is the business of that side. -/
structure PackageManager (Message : Type) where
  packageList : Table Int (Package Message)
  nextId : Int
  deriving DecidableEq

/-- A timer that `wait_next_phase` registered; times are clock readings in
nanoseconds. -/
structure Timer where
  timerId : Int
  expiryTime : Int
  transId : Int
  deriving DecidableEq

/-- A message on the `OUT_QUEUE`, with its package. -/
structure OutMessage (Message : Type) where
  connId : Int
  serviceId : Int
  package : Package Message
  deriving DecidableEq

/-- The data of the program and what the framework keeps for it:
`PackageManager`, `MultiplyPhaseTransactionManager`, the timers of waiting
transactions, and all that was pushed to the `OUT_QUEUE` so far. -/
structure Worker (App Self Message : Type) where
  app : App
  packages : PackageManager Message
  transList : Table Int (MultiplyPhaseTransaction Self)
  bindList : Table Int Int
  nextTransId : Int
  timers : List Timer
  nextTimerId : Int
  outQueue : List (OutMessage Message)
  deriving DecidableEq

namespace Worker

variable {App Self Message Call : Type}

/-- The worker of a process that just started. -/
def init (app : App) : Worker App Self Message where
  app := app
  packages := { packageList := ∅, nextId := 1 }
  transList := ∅
  bindList := ∅
  nextTransId := 1
  timers := []
  nextTimerId := 1
  outQueue := []

/-! ## Carrying out the calls of a handler -/

/-- `Network::send_protocol` and `send_package`.  The new package has a fresh
id, so `bind_transaction` never finds the id bound. -/
def sendProtocol (protocol : Protocol Message)
    (worker : Worker App Self Message) (send : Send Message) :
    Worker App Self Message :=
  if maxContentLen < protocol.messageSize send.message then worker
  else
    let packageId := worker.packages.nextId
    let command :=
      if protocol.isRspError send.message ∧ send.triggerCmd ≠ 0 then
        protocol.responseCommand send.triggerCmd
      else protocol.command send.message
    { worker with
      packages := { worker.packages with nextId := packageId + 1 }
      bindList :=
        if send.bindTransId ≠ 0 then
          worker.bindList.insertIfNew packageId send.bindTransId
        else worker.bindList
      outQueue := worker.outQueue ++
        [{ connId := send.connId
           serviceId := send.serviceId
           package :=
             { command := command
               selfPackageId := packageId
               triggerPackageId := send.triggerPackageId
               content := some send.message } }] }

def sendAll (protocol : Protocol Message)
    (worker : Worker App Self Message) (sends : List (Send Message)) :
    Worker App Self Message :=
  sends.foldl (sendProtocol protocol) worker

/-- The timer of one `wait_next_phase`. -/
def registerTimer (now transId : Int)
    (worker : Worker App Self Message) (wait : Wait) :
    Worker App Self Message :=
  { worker with
    timers := worker.timers ++
      [{ timerId := worker.nextTimerId
         expiryTime := now + wait.timeout * 1000000000
         transId := transId }]
    nextTimerId := worker.nextTimerId + 1 }

/-- Run a member function of a transaction: how it ended, the transaction and
the worker afterwards.  The worker's own entry of the transaction is written
back by the caller. -/
def runMember (program : Program App Self Message Call) (now : Int)
    (worker : Worker App Self Message)
    (trans : MultiplyPhaseTransaction Self)
    (handler : Handler App Self Message Unit) :
    Except Fault Unit ×
      MultiplyPhaseTransaction Self × Worker App Self Message :=
  let outcome := handler
    { app := worker.app, self := trans.self, sends := [], waits := [] }
  let frame := outcome.2
  let sent := sendAll program.protocol { worker with app := frame.app }
    frame.sends
  (outcome.1,
    frame.waits.foldl MultiplyPhaseTransaction.waitNextPhase
      { trans with self := frame.self },
    frame.waits.foldl (registerTimer now trans.id) sent)

/-- `safe_call` of an error handler: its exceptions are only logged. -/
def ignoreException (result : Except Fault Unit) : Except Fault Unit :=
  match result with
  | .ok () => .ok ()
  | .error .undefined => .error .undefined
  | .error (.exception thrown) => (getErrorInfo thrown).map fun _ => ()

/-- `call_transaction` of a member function, with `on_error` as the error
handler.  There is no result when the process aborts. -/
def callTransaction (program : Program App Self Message Call)
    (now connId : Int) (worker : Worker App Self Message)
    (trans : MultiplyPhaseTransaction Self)
    (handler : Handler App Self Message Unit) :
    Option (MultiplyPhaseTransaction Self × Worker App Self Message) :=
  match runMember program now worker trans handler with
  | (.ok (), after) => some after
  | (.error .undefined, _) => none
  | (.error (.exception thrown), failed, left) =>
      match getErrorInfo thrown with
      | .error _ => none
      | .ok errorInfo =>
          match runMember program now left failed
              (program.onError failed connId errorInfo) with
          | (result, after) =>
              match ignoreException result with
              | .ok () => some after
              | .error _ => none

/-- Keep the transaction while it waits, remove it otherwise. -/
def finish (after : MultiplyPhaseTransaction Self × Worker App Self Message) :
    Worker App Self Message :=
  if after.1.isWaiting then
    { after.2 with transList := after.2.transList.insert after.1.id after.1 }
  else { after.2 with transList := after.2.transList.erase after.1.id }

/-! ## Network messages -/

/-- `call_transaction` of a one-phase handler, with `on_transaction_error` as
the error handler. -/
def callOnePhase (program : Program App Self Message Call)
    (connId : Int) (package : Package Message)
    (worker : Worker App Self Message)
    (handler : Handler App Unit Message Unit) :
    Option (Worker App Self Message) :=
  let outcome := handler
    { app := worker.app, self := (), sends := [], waits := [] }
  let sent := sendAll program.protocol { worker with app := outcome.2.app }
    outcome.2.sends
  match outcome.1 with
  | .ok () => some sent
  | .error .undefined => none
  | .error (.exception thrown) =>
      match getErrorInfo thrown with
      | .error _ => none
      | .ok errorInfo =>
          let reply := Frame.onTransactionError program.protocol connId
            package.triggerSource errorInfo
            { app := sent.app, self := (), sends := [], waits := [] }
          some (sendAll program.protocol sent reply.2.sends)

/-- The branch of `trigger_transaction` that creates a transaction. -/
def createTransaction (program : Program App Self Message Call)
    (now connId : Int) (package : Package Message)
    (worker : Worker App Self Message) : Option (Worker App Self Message) :=
  match program.findTransaction package.command with
  | none => some worker
  | some (.onePhase handler) =>
      callOnePhase program connId package worker (handler now connId package)
  | some (.multiplyPhase factory) =>
      let trans := MultiplyPhaseTransaction.init worker.nextTransId factory
        connId package.triggerSource
      let registered := { worker with nextTransId := worker.nextTransId + 1 }
      (callTransaction program now connId registered trans
        (program.onInit trans connId package)).map finish

/-- `find_bound_transaction`. -/
def findBoundTransaction (worker : Worker App Self Message)
    (packageId : Int) : Option (MultiplyPhaseTransaction Self) :=
  match worker.bindList[packageId]? with
  | none => none
  | some transId => worker.transList[transId]?

/-- `remove_bound_transaction`. -/
def removeBoundTransaction (packageId : Int)
    (worker : Worker App Self Message) : Worker App Self Message :=
  { worker with bindList := worker.bindList.erase packageId }

/-- The branch of `trigger_transaction` for a package that answers to a
waiting transaction, up to the removal of the binding. -/
def activeTransaction (program : Program App Self Message Call)
    (now connId serviceId : Int) (package : Package Message)
    (worker : Worker App Self Message)
    (trans : MultiplyPhaseTransaction Self) :
    Option (Worker App Self Message) :=
  if trans.fits connId serviceId package.command then
    let active := trans.clearWaitingState
    (callTransaction program now connId worker active
      (program.onActive active connId package)).map finish
  else some worker

def removePackage (packageId : Int) (worker : Worker App Self Message) :
    Worker App Self Message :=
  { worker with
    packages :=
      { worker.packages with
        packageList := worker.packages.packageList.erase packageId } }

/-- The transaction that the package answers to. -/
def waitingTransaction (worker : Worker App Self Message)
    (package : Package Message) : Option (MultiplyPhaseTransaction Self) :=
  if package.triggerPackageId ≠ 0 then
    worker.findBoundTransaction package.triggerPackageId
  else none

def triggerTransaction (program : Program App Self Message Call)
    (now connId serviceId packageId : Int)
    (worker : Worker App Self Message) : Option (Worker App Self Message) :=
  match worker.packages.packageList[packageId]? with
  | none => some worker
  | some package =>
      let processed :=
        match worker.waitingTransaction package with
        | none => createTransaction program now connId package worker
        | some waiting =>
            (activeTransaction program now connId serviceId package worker
              waiting).map (removeBoundTransaction package.triggerPackageId)
      processed.map (removePackage packageId)

/-! ## Timers -/

/-- The action of a timer of `wait_next_phase`; after an exception of
`on_error` the transaction stays registered. -/
def transactionTimeout (program : Program App Self Message Call)
    (now transId : Int) (worker : Worker App Self Message) :
    Option (Worker App Self Message) :=
  match worker.transList[transId]? with
  | none => some worker
  | some waiting =>
      let trans := waiting.clearWaitingState
      match runMember program now worker trans
          (program.onError trans trans.waitConnId
            (toErrorInfo .errTransactionTimeout)) with
      | (.ok (), after) => some (finish after)
      | (.error fault, after, left) =>
          match ignoreException (.error fault) with
          | .ok () => some
              { left with transList := left.transList.insert after.id after }
          | .error _ => none

/-- The end of `process_expiry_timer`: `pop_heap` takes a timer of the least
expiry time, which is the one that fired unless its action registered an
earlier one. -/
def popTimer (fired : Timer) (worker : Worker App Self Message) :
    Worker App Self Message :=
  let popped := (worker.timers.find? fun timer =>
    timer.expiryTime < fired.expiryTime &&
      worker.timers.all fun other =>
        timer.expiryTime ≤ other.expiryTime).getD fired
  { worker with timers := worker.timers.erase popped }

/-- `process_expiry_timer` with the given timer at the front of the heap; it
is a timer of the least expiry time. -/
def processExpiryTimer (program : Program App Self Message Call)
    (now timerId : Int) (worker : Worker App Self Message) :
    Option (Worker App Self Message) :=
  match worker.timers.find? fun timer => timer.timerId == timerId with
  | none => none
  | some timer =>
      if worker.timers.any fun other => other.expiryTime < timer.expiryTime
      then none
      else if now < timer.expiryTime then some worker
      else
        (transactionTimeout program now timer.transId worker).map
          (popTimer timer)

/-! ## The machine -/

/-- What the worker can be given to do: a package that the network side
received and pushed to the `IN_QUEUE`, an internal call, or an expired timer,
with the reading of the clock. -/
inductive Event (Message Call : Type)
  | receive (now connId serviceId : Int) (package : Package Message)
  | internal (call : Call)
  | expire (now timerId : Int)

/-- Register a received package and process it. -/
def receive (program : Program App Self Message Call)
    (now connId serviceId : Int) (package : Package Message)
    (worker : Worker App Self Message) : Option (Worker App Self Message) :=
  let packageId := worker.packages.nextId
  triggerTransaction program now connId serviceId packageId
    { worker with
      packages :=
        { packageList := worker.packages.packageList.insert packageId package
          nextId := packageId + 1 } }

/-- An internal call; its exceptions are only logged. -/
def callInternal (program : Program App Self Message Call) (call : Call)
    (worker : Worker App Self Message) : Option (Worker App Self Message) :=
  match program.internal call worker.app with
  | (result, app) =>
      match ignoreException result with
      | .ok () => some { worker with app := app }
      | .error _ => none

def step (program : Program App Self Message Call)
    (worker : Worker App Self Message) :
    Event Message Call → Option (Worker App Self Message)
  | .receive now connId serviceId package =>
      receive program now connId serviceId package worker
  | .internal call => callInternal program call worker
  | .expire now timerId => processExpiryTimer program now timerId worker

/-- The worker of a program from a start state on. -/
def machine (program : Program App Self Message Call) (app : App) :
    Machine (Worker App Self Message) (Event Message Call) where
  start := init app
  step := step program

end Worker

end Foundation
end Spaceless
