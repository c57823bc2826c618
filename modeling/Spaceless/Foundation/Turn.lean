import Spaceless.Foundation.Registration

/-!
# The turn of a transaction

A step runs members of at most one transaction.  Its turn collects what they
ask of the framework, and says whether the transaction stays registered; what
a step leaves of the transactions, timers, bindings and outgoing messages
follows from the turn.
-/

namespace Spaceless
namespace Foundation

open Logic

/-- What the members that run in a step ask for. -/
structure Turn (Self Message : Type) where
  trans : Option (MultiplyPhaseTransaction Self)
  sends : List (Send Message)
  waits : List Wait
  keeps : Bool

namespace Turn

variable {Self Message : Type}

/-- No transaction has its turn. -/
def idle : Turn Self Message where
  trans := none
  sends := []
  waits := []
  keeps := false

/-- The id of the transaction whose turn it is. -/
def transId (turn : Turn Self Message) : Option Int :=
  turn.trans.map MultiplyPhaseTransaction.id

end Turn

namespace Worker

variable {App Self Message Call : Type}

/-! ## The calls of members -/

/-- The timers that calls of `wait_next_phase` register. -/
def newTimers (now transId : Int) : Int → List Wait → List Timer
  | _, [] => []
  | timerId, wait :: waits =>
      { timerId := timerId
        expiryTime := now + wait.timeout * 1000000000
        transId := transId } ::
      newTimers now transId (timerId + 1) waits

/-- The transaction after calls of `wait_next_phase`. -/
def afterWaits (trans : MultiplyPhaseTransaction Self) (self : Self)
    (waits : List Wait) : MultiplyPhaseTransaction Self :=
  waits.foldl MultiplyPhaseTransaction.waitNextPhase { trans with self := self }

/-- The calls of a member function under `call_transaction`, with those of
`on_error` after an exception. -/
def memberCalls (program : Program App Self Message Call) (connId : Int)
    (app : App) (trans : MultiplyPhaseTransaction Self)
    (handler : Handler App Self Message Unit) :
    List (Send Message) × List Wait :=
  let outcome := handler (startFrame app trans.self)
  let frame := outcome.2
  match outcome.1 with
  | .error (.exception thrown) =>
      match getErrorInfo thrown with
      | .ok errorInfo =>
          let failed := afterWaits trans frame.self frame.waits
          let last := (program.onError failed connId errorInfo).after
            (startFrame frame.app frame.self)
          (frame.sends ++ last.sends, frame.waits ++ last.waits)
      | .error _ => (frame.sends, frame.waits)
  | _ => (frame.sends, frame.waits)

/-- The sends of a one-phase handler under `call_transaction`. -/
def onePhaseSends (protocol : Protocol Message) (connId : Int) (app : App)
    (package : Package Message) (handler : Handler App Unit Message Unit) :
    List (Send Message) :=
  let outcome := handler (startFrame app ())
  match outcome.1 with
  | .error (.exception thrown) =>
      match getErrorInfo thrown with
      | .ok errorInfo =>
          outcome.2.sends ++
            [{ connId := connId, message := protocol.rspError errorInfo
               bindTransId := 0, triggerPackageId := package.selfPackageId
               triggerCmd := package.command, serviceId := 0 }]
      | .error _ => outcome.2.sends
  | _ => outcome.2.sends

/-- The turn of a member function under `call_transaction`. -/
def memberTurn (program : Program App Self Message Call) (connId : Int)
    (app : App) (trans : MultiplyPhaseTransaction Self)
    (handler : Handler App Self Message Unit) : Turn Self Message where
  trans := some trans
  sends := (memberCalls program connId app trans handler).1
  waits := (memberCalls program connId app trans handler).2
  keeps := !(memberCalls program connId app trans handler).2.isEmpty

/-- The outcome of `on_error` at a timeout. -/
def timeoutOutcome (program : Program App Self Message Call) (app : App)
    (waiting : MultiplyPhaseTransaction Self) :
    Except Fault Unit × Frame App Self Message :=
  program.onError waiting.clearWaitingState waiting.waitConnId
    (toErrorInfo .errTransactionTimeout) (startFrame app waiting.self)

/-- The turn of the action of a timer; an exception keeps the transaction. -/
def timeoutTurn (program : Program App Self Message Call) (app : App)
    (waiting : MultiplyPhaseTransaction Self) : Turn Self Message where
  trans := some waiting.clearWaitingState
  sends := (timeoutOutcome program app waiting).2.sends
  waits := (timeoutOutcome program app waiting).2.waits
  keeps :=
    match (timeoutOutcome program app waiting).1 with
    | .ok () => !(timeoutOutcome program app waiting).2.waits.isEmpty
    | .error _ => true

/-- The turn of a received package. -/
def receiveTurn (program : Program App Self Message Call)
    (worker : Worker App Self Message) (now connId serviceId : Int)
    (package : Package Message) : Turn Self Message :=
  match worker.waitingTransaction package with
  | none =>
      match program.findTransaction package.command with
      | none => .idle
      | some (.onePhase handler) =>
          { trans := none
            sends := onePhaseSends program.protocol connId worker.app package
              (handler now connId package)
            waits := []
            keeps := false }
      | some (.multiplyPhase factory) =>
          let trans := MultiplyPhaseTransaction.init worker.nextTransId
            factory connId package.triggerSource
          memberTurn program connId worker.app trans
            (program.onInit trans connId package)
  | some waiting =>
      if waiting.fits connId serviceId package.command then
        memberTurn program connId worker.app waiting.clearWaitingState
          (program.onActive waiting.clearWaitingState connId package)
      else .idle

/-- The turn of an expired timer. -/
def expireTurn (program : Program App Self Message Call)
    (worker : Worker App Self Message) (now timerId : Int) :
    Turn Self Message :=
  match worker.dueTimer now timerId with
  | none => .idle
  | some timer =>
      match worker.transList[timer.transId]? with
      | none => .idle
      | some waiting => timeoutTurn program worker.app waiting

/-- The turn of a step. -/
def turn (program : Program App Self Message Call)
    (worker : Worker App Self Message) :
    Event Message Call → Turn Self Message
  | .receive now connId serviceId package =>
      receiveTurn program worker now connId serviceId package
  | .internal _ => .idle
  | .expire now timerId => expireTurn program worker now timerId

/-- The kinds of turns. -/
inductive Turns (program : Program App Self Message Call)
    (worker : Worker App Self Message) :
    Event Message Call → Turn Self Message → Prop
  | idle {event : Event Message Call} : Turns program worker event .idle
  | onePhase {now connId serviceId : Int} {package : Package Message}
      {handler : Int → Int → Package Message → Handler App Unit Message Unit}
      (starts : worker.waitingTransaction package = none)
      (registered : program.findTransaction package.command =
        some (.onePhase handler)) :
      Turns program worker (.receive now connId serviceId package)
        ⟨none, onePhaseSends program.protocol connId worker.app package
          (handler now connId package), [], false⟩
  | starts {now connId serviceId : Int} {package : Package Message}
      {factory : Self}
      (starts : worker.waitingTransaction package = none)
      (registered : program.findTransaction package.command =
        some (.multiplyPhase factory)) :
      Turns program worker (.receive now connId serviceId package)
        (memberTurn program connId worker.app
          (MultiplyPhaseTransaction.init worker.nextTransId factory connId
            package.triggerSource)
          (program.onInit
            (MultiplyPhaseTransaction.init worker.nextTransId factory connId
              package.triggerSource) connId package))
  | active {now connId serviceId : Int} {package : Package Message}
      {waiting : MultiplyPhaseTransaction Self}
      (answers : worker.waitingTransaction package = some waiting)
      (fits : waiting.fits connId serviceId package.command = true) :
      Turns program worker (.receive now connId serviceId package)
        (memberTurn program connId worker.app waiting.clearWaitingState
          (program.onActive waiting.clearWaitingState connId package))
  | timeout {now timerId : Int} {timer : Timer}
      {waiting : MultiplyPhaseTransaction Self}
      (due : worker.dueTimer now timerId = some timer)
      (registered : worker.transList[timer.transId]? = some waiting) :
      Turns program worker (.expire now timerId)
        (timeoutTurn program worker.app waiting)

theorem turns (program : Program App Self Message Call)
    (worker : Worker App Self Message) (event : Event Message Call) :
    Turns program worker event (worker.turn program event) := by
  cases event with
  | receive now connId serviceId package =>
      change Turns program worker _
        (receiveTurn program worker now connId serviceId package)
      unfold receiveTurn
      split
      · rename_i starts
        split
        · exact .idle
        · rename_i handler registered
          exact .onePhase starts registered
        · rename_i factory registered
          exact .starts starts registered
      · rename_i waiting answers
        split
        · rename_i fits
          exact .active answers fits
        · exact .idle
  | internal call => exact .idle
  | expire now timerId =>
      change Turns program worker _ (expireTurn program worker now timerId)
      unfold expireTurn
      split
      · exact .idle
      · rename_i timer due
        split
        · exact .idle
        · rename_i waiting registered
          exact .timeout due registered

/-! ## What a member leaves -/

/-- What calls of members leave: the transaction, registered timers, and all
that was sent. -/
structure Ran (protocol : Protocol Message) (now : Int)
    (worker : Worker App Self Message)
    (trans : MultiplyPhaseTransaction Self) (sends : List (Send Message))
    (waits : List Wait)
    (after : MultiplyPhaseTransaction Self × Worker App Self Message) :
    Prop where
  entry : after.1 = afterWaits trans after.1.self waits
  transList : after.2.transList = worker.transList
  nextTransId : after.2.nextTransId = worker.nextTransId
  timers : after.2.timers = worker.timers ++
    newTimers now trans.id worker.nextTimerId waits
  nextTimerId : after.2.nextTimerId = worker.nextTimerId + waits.length
  outgoing : SameOutgoing after.2 (sendAll protocol worker sends)

@[simp] theorem afterWaits_id (trans : MultiplyPhaseTransaction Self)
    (self : Self) (waits : List Wait) :
    (afterWaits trans self waits).id = trans.id :=
  foldl_waitNextPhase_id _ waits

@[simp] theorem afterWaits_currentPhase
    (trans : MultiplyPhaseTransaction Self) (self : Self)
    (waits : List Wait) :
    (afterWaits trans self waits).currentPhase =
      trans.currentPhase + waits.length := by
  have counted (trans : MultiplyPhaseTransaction Self) :
      (waits.foldl MultiplyPhaseTransaction.waitNextPhase
        trans).currentPhase = trans.currentPhase + waits.length := by
    induction waits generalizing trans with
    | nil => exact (Int.add_zero _).symm
    | cons wait waits inductionHypothesis =>
        rw [List.foldl_cons, inductionHypothesis, List.length_cons]
        change trans.currentPhase + 1 + _ = _
        omega
  exact counted _

theorem afterWaits_isWaiting {trans : MultiplyPhaseTransaction Self}
    (idle : trans.isWaiting = false) (self : Self) (waits : List Wait) :
    (afterWaits trans self waits).isWaiting = true ↔ waits ≠ [] :=
  foldl_waitNextPhase_isWaiting idle

/-! ### Several calls -/

theorem afterWaits_append (trans : MultiplyPhaseTransaction Self)
    (middle last : Self) (first second : List Wait) :
    afterWaits (afterWaits trans middle first) last second =
      afterWaits trans last (first ++ second) := by
  have moved (trans : MultiplyPhaseTransaction Self) (waits : List Wait) :
      { waits.foldl MultiplyPhaseTransaction.waitNextPhase trans with
        self := last } =
        waits.foldl MultiplyPhaseTransaction.waitNextPhase
          { trans with self := last } := by
    induction waits generalizing trans with
    | nil => rfl
    | cons wait waits inductionHypothesis =>
        exact inductionHypothesis (trans.waitNextPhase wait)
  unfold afterWaits
  rw [moved, List.foldl_append]

theorem newTimers_append (now transId timerId : Int)
    (first second : List Wait) :
    newTimers now transId timerId (first ++ second) =
      newTimers now transId timerId first ++
        newTimers now transId (timerId + first.length) second := by
  induction first generalizing timerId with
  | nil => simp [newTimers]
  | cons wait waits inductionHypothesis =>
      simp only [List.cons_append, newTimers, inductionHypothesis,
        List.length_cons]
      rw [show timerId + 1 + (waits.length : Int) =
        timerId + ((waits.length + 1 : Nat) : Int) by omega]

theorem foldl_registerTimer (now transId : Int)
    (worker : Worker App Self Message) (waits : List Wait) :
    (waits.foldl (registerTimer now transId) worker).timers =
        worker.timers ++ newTimers now transId worker.nextTimerId waits ∧
      (waits.foldl (registerTimer now transId) worker).nextTimerId =
        worker.nextTimerId + waits.length := by
  induction waits generalizing worker with
  | nil => simp [newTimers]
  | cons wait waits inductionHypothesis =>
      obtain ⟨timers, counted⟩ :=
        inductionHypothesis (registerTimer now transId worker wait)
      rw [List.foldl_cons]
      refine ⟨timers.trans ?_, counted.trans ?_⟩
      · exact List.append_assoc _ _ _
      · simp only [registerTimer, List.length_cons]
        omega

@[simp] theorem sendAll_timers (protocol : Protocol Message)
    (worker : Worker App Self Message) (sends : List (Send Message)) :
    (sendAll protocol worker sends).timers = worker.timers ∧
      (sendAll protocol worker sends).nextTimerId = worker.nextTimerId := by
  induction sends generalizing worker with
  | nil => exact ⟨rfl, rfl⟩
  | cons send sends inductionHypothesis =>
      obtain ⟨timers, counted⟩ :=
        inductionHypothesis (sendProtocol protocol worker send)
      have same : (sendProtocol protocol worker send).timers =
          worker.timers ∧
          (sendProtocol protocol worker send).nextTimerId =
            worker.nextTimerId := by
        unfold sendProtocol
        split <;> exact ⟨rfl, rfl⟩
      exact ⟨timers.trans same.1, counted.trans same.2⟩

theorem sendAll_append (protocol : Protocol Message)
    (worker : Worker App Self Message) (first second : List (Send Message)) :
    sendAll protocol worker (first ++ second) =
      sendAll protocol (sendAll protocol worker first) second :=
  List.foldl_append

/-- What is sent depends on the outgoing side only. -/
theorem SameOutgoing.sendAll (protocol : Protocol Message)
    {first second : Worker App Self Message}
    (same : SameOutgoing first second) (sends : List (Send Message)) :
    SameOutgoing (sendAll protocol first sends)
      (sendAll protocol second sends) := by
  induction sends generalizing first second with
  | nil => exact same
  | cons send sends inductionHypothesis =>
      apply inductionHypothesis
      obtain ⟨queue, packages, bindings⟩ := same
      unfold sendProtocol
      split
      · exact ⟨queue, packages, bindings⟩
      · constructor <;> simp only [queue, packages, bindings]

theorem SameOutgoing.trans {first second third : Worker App Self Message}
    (same : SameOutgoing first second) (other : SameOutgoing second third) :
    SameOutgoing first third :=
  ⟨same.outQueue.trans other.outQueue, same.packages.trans other.packages,
    same.bindList.trans other.bindList⟩

section Member

variable {program : Program App Self Message Call} {now connId : Int}
  {worker : Worker App Self Message}
  {trans : MultiplyPhaseTransaction Self}
  {handler : Handler App Self Message Unit}
  {after : MultiplyPhaseTransaction Self × Worker App Self Message}

theorem runMember_ran {result : Except Fault Unit}
    (run : runMember program now worker trans handler = (result, after)) :
    Ran program.protocol now worker trans
      (handler.after (startFrame worker.app trans.self)).sends
      (handler.after (startFrame worker.app trans.self)).waits after := by
  obtain ⟨rfl, rfl⟩ := Prod.mk.inj run
  let frame := handler.after (startFrame worker.app trans.self)
  let sent := sendAll program.protocol { worker with app := frame.app }
    frame.sends
  have registers := foldl_registerTimer now trans.id sent frame.waits
  have kept := sendAll_timers program.protocol
    { worker with app := frame.app } frame.sends
  have timers : sent.timers = worker.timers := kept.1
  have counted : sent.nextTimerId = worker.nextTimerId := kept.2
  rw [timers, counted] at registers
  refine ⟨?_, ?_, ?_, registers.1, registers.2, ?_⟩
  · unfold afterWaits
    rw [foldl_waitNextPhase_self]
    rfl
  · exact runMember_transList program now worker trans handler
  · exact runMember_nextTransId program now worker trans handler
  · have same : SameOutgoing { worker with app := frame.app } worker :=
      ⟨rfl, rfl, rfl⟩
    exact (foldl_registerTimer_outgoing now trans.id sent frame.waits).trans
      (same.sendAll program.protocol frame.sends)

/-- A member after another. -/
theorem Ran.append {protocol : Protocol Message}
    {sends moreSends : List (Send Message)} {waits moreWaits : List Wait}
    {middle : MultiplyPhaseTransaction Self × Worker App Self Message}
    (first : Ran protocol now worker trans sends waits middle)
    (second : Ran protocol now middle.2 middle.1 moreSends moreWaits after) :
    Ran protocol now worker trans (sends ++ moreSends) (waits ++ moreWaits)
      after where
  entry := by
    have entry := second.entry
    rw [first.entry, afterWaits_append] at entry
    exact entry
  transList := second.transList.trans first.transList
  nextTransId := second.nextTransId.trans first.nextTransId
  timers := by
    have transId : middle.1.id = trans.id := by
      rw [first.entry, afterWaits_id]
    rw [second.timers, first.timers, first.nextTimerId, transId,
      newTimers_append, List.append_assoc]
  nextTimerId := by
    rw [second.nextTimerId, first.nextTimerId, List.length_append]
    omega
  outgoing := by
    rw [sendAll_append]
    exact second.outgoing.trans (first.outgoing.sendAll protocol moreSends)

theorem memberCalls_of_ok {app : App} {frame : Frame App Self Message}
    (ran : handler (startFrame app trans.self) = (.ok (), frame)) :
    memberCalls program connId app trans handler =
      (frame.sends, frame.waits) := by
  unfold memberCalls
  rw [ran]

theorem memberCalls_of_error {app : App} {frame : Frame App Self Message}
    {thrown : Exception} {errorInfo : ErrorInfo}
    (ran : handler (startFrame app trans.self) =
      (.error (.exception thrown), frame))
    (info : getErrorInfo thrown = .ok errorInfo) :
    memberCalls program connId app trans handler =
      (frame.sends ++ ((program.onError
          (afterWaits trans frame.self frame.waits) connId errorInfo).after
            (startFrame frame.app frame.self)).sends,
        frame.waits ++ ((program.onError
          (afterWaits trans frame.self frame.waits) connId errorInfo).after
            (startFrame frame.app frame.self)).waits) := by
  unfold memberCalls
  rw [ran]
  dsimp only
  rw [info]

/-- A call of a member makes the calls of its turn. -/
theorem callTransaction_ran
    (called : callTransaction program now connId worker trans handler =
      some after) :
    Ran program.protocol now worker trans
      (memberCalls program connId worker.app trans handler).1
      (memberCalls program connId worker.app trans handler).2 after := by
  have result := runMember_result program now worker trans handler
  have app := runMember_app program now worker trans handler
  have self := runMember_self program now worker trans handler
  unfold callTransaction at called
  split at called
  · rename_i later run
    cases called
    rw [run] at result
    rw [memberCalls_of_ok (Prod.ext result.symm rfl)]
    exact runMember_ran run
  · cases called
  · rename_i thrown failed left run
    rw [run] at result app self
    split at called
    · cases called
    · rename_i errorInfo info
      split at called
      rename_i ended later rerun
      split at called
      · cases called
        have first := runMember_ran run
        have second := runMember_ran rerun
        have entry := first.entry
        dsimp only at app self entry second
        rw [self] at entry
        subst entry
        rw [app, self] at second
        rw [memberCalls_of_error (Prod.ext result.symm rfl) info]
        exact first.append second
      · cases called

end Member

/-! ## What a step leaves -/

/-- The clock reading of an event. -/
def Event.now : Event Message Call → Int
  | .receive now _ _ _ => now
  | .internal _ => 0
  | .expire now _ => now

/-- The timer that fires. -/
def firedTimer (worker : Worker App Self Message) :
    Event Message Call → Option Timer
  | .expire now timerId => worker.dueTimer now timerId
  | _ => none

/-- The worker that the sends of a step start from. -/
def sending (worker : Worker App Self Message) :
    Event Message Call → Worker App Self Message
  | .receive _ _ _ package => registerPackage package worker
  | _ => worker

/-- The package id whose binding the step removes. -/
def answeredId (worker : Worker App Self Message) :
    Event Message Call → Option Int
  | .receive _ _ _ package =>
      (worker.waitingTransaction package).map fun _ =>
        package.triggerPackageId
  | _ => none

variable (program : Program App Self Message Call)
  (worker : Worker App Self Message) (event : Event Message Call) in
/-- The worker after the sends of a step. -/
def sent : Worker App Self Message :=
  sendAll program.protocol (worker.sending event)
    (worker.turn program event).sends

variable (program : Program App Self Message Call)
  (worker : Worker App Self Message) (event : Event Message Call) in
/-- The timers with those that the step registers. -/
def allTimers : List Timer :=
  worker.timers ++
    match (worker.turn program event).trans with
    | none => []
    | some entry => newTimers event.now entry.id worker.nextTimerId
        (worker.turn program event).waits

variable (program : Program App Self Message Call)
  (worker : Worker App Self Message) (event : Event Message Call)
  (later : Worker App Self Message) in
/-- What a step leaves, in terms of its turn. -/
structure Turned : Prop where
  own : ∀ trans, (worker.turn program event).trans = some trans →
    if (worker.turn program event).keeps then
      ∃ self, later.transList[trans.id]? =
        some (afterWaits trans self (worker.turn program event).waits)
    else later.transList[trans.id]? = none
  others : ∀ transId, (worker.turn program event).transId ≠ some transId →
    later.transList[transId]? = worker.transList[transId]?
  outQueue : later.outQueue = (sent program worker event).outQueue
  nextId : later.packages.nextId =
    (sent program worker event).packages.nextId
  bindList : later.bindList =
    match worker.answeredId event with
    | none => (sent program worker event).bindList
    | some packageId =>
        (sent program worker event).bindList.erase packageId
  timers : later.timers =
    match worker.firedTimer event with
    | none => allTimers program worker event
    | some timer => (popTimer timer
        { worker with timers := allTimers program worker event }).timers
  nextTimerId : later.nextTimerId =
    worker.nextTimerId + (worker.turn program event).waits.length
  least : ∀ timer, worker.firedTimer event = some timer →
    ∀ other ∈ worker.timers, timer.expiryTime ≤ other.expiryTime

@[simp] theorem finish_timers
    (after : MultiplyPhaseTransaction Self × Worker App Self Message) :
    (finish after).timers = after.2.timers ∧
      (finish after).nextTimerId = after.2.nextTimerId := by
  unfold finish
  split <;> exact ⟨rfl, rfl⟩

section Finish

variable {protocol : Protocol Message} {now : Int}
  {worker : Worker App Self Message}
  {trans : MultiplyPhaseTransaction Self} {sends : List (Send Message)}
  {waits : List Wait}
  {after : MultiplyPhaseTransaction Self × Worker App Self Message}

theorem Ran.transId (ran : Ran protocol now worker trans sends waits after) :
    after.1.id = trans.id := by
  rw [ran.entry, afterWaits_id]

/-- The transaction is kept exactly if its members have waited. -/
theorem Ran.finish_own
    (ran : Ran protocol now worker trans sends waits after)
    (idle : trans.isWaiting = false) :
    if !waits.isEmpty then
      ∃ self, (finish after).transList[trans.id]? =
        some (afterWaits trans self waits)
    else (finish after).transList[trans.id]? = none := by
  have own := finish_transList_self after
  have waiting : after.1.isWaiting = true ↔ waits ≠ [] := by
    rw [ran.entry]
    exact afterWaits_isWaiting idle after.1.self waits
  rw [ran.transId] at own
  rw [own]
  by_cases empty : waits = []
  · rw [if_neg (by simp [empty]), if_neg (by simp [waiting, empty])]
  · rw [if_pos (by simp [empty]), if_pos (waiting.mpr empty)]
    exact ⟨after.1.self, congrArg some ran.entry⟩

theorem Ran.finish_others
    (ran : Ran protocol now worker trans sends waits after)
    {transId : Int} (different : some trans.id ≠ some transId) :
    (finish after).transList[transId]? = worker.transList[transId]? := by
  rw [finish_transList_of_ne, ran.transList]
  rw [ran.transId]
  exact fun same => different (congrArg some same)

end Finish

section Steps

variable {program : Program App Self Message Call}
  {now connId serviceId : Int} {package : Package Message}
  {worker later : Worker App Self Message}

theorem Turned.of_idle {event : Event Message Call}
    (turn : worker.turn program event = .idle)
    (transList : later.transList = worker.transList)
    (outQueue : later.outQueue = worker.outQueue)
    (nextId : later.packages.nextId = (worker.sending event).packages.nextId)
    (bindList : later.bindList =
      match worker.answeredId event with
      | none => worker.bindList
      | some packageId => worker.bindList.erase packageId)
    (timers : later.timers =
      match worker.firedTimer event with
      | none => worker.timers
      | some timer => (popTimer timer worker).timers)
    (nextTimerId : later.nextTimerId = worker.nextTimerId)
    (least : ∀ timer, worker.firedTimer event = some timer →
      ∀ other ∈ worker.timers, timer.expiryTime ≤ other.expiryTime) :
    Turned program worker event later := by
  have sends : sent program worker event = worker.sending event := by
    unfold sent
    rw [turn]
    rfl
  have registers : allTimers program worker event = worker.timers := by
    unfold allTimers
    rw [turn]
    exact List.append_nil _
  have queue : (worker.sending event).outQueue = worker.outQueue := by
    cases event <;> rfl
  have bindings : (worker.sending event).bindList = worker.bindList := by
    cases event <;> rfl
  constructor
  · intro trans own
    rw [turn] at own
    cases own
  · intro transId _
    rw [transList]
  · rw [sends, queue, outQueue]
  · rw [sends, nextId]
  · rw [sends, bindings, bindList]
  · rw [registers, timers]
  · rw [turn, nextTimerId]
    exact (Int.add_zero _).symm
  · exact least

/-- A step that runs members of a transaction, from a worker that already has
the received package, and may have handed out the id of the transaction. -/
theorem Turned.of_ran {event : Event Message Call}
    {trans : MultiplyPhaseTransaction Self} {sends : List (Send Message)}
    {waits : List Wait} {keeps : Bool} {start : Worker App Self Message}
    {after : MultiplyPhaseTransaction Self × Worker App Self Message}
    (turn : worker.turn program event = ⟨some trans, sends, waits, keeps⟩)
    (outgoing : SameOutgoing start (worker.sending event))
    (startTimers : start.timers = worker.timers)
    (startTimerId : start.nextTimerId = worker.nextTimerId)
    (ran : Ran program.protocol event.now start trans sends waits after)
    (own : if keeps then ∃ self, later.transList[trans.id]? =
        some (afterWaits trans self waits)
      else later.transList[trans.id]? = none)
    (others : ∀ transId, some trans.id ≠ some transId →
      later.transList[transId]? = worker.transList[transId]?)
    (outQueue : later.outQueue = after.2.outQueue)
    (nextId : later.packages.nextId = after.2.packages.nextId)
    (bindList : later.bindList =
      match worker.answeredId event with
      | none => after.2.bindList
      | some packageId => after.2.bindList.erase packageId)
    (timers : later.timers =
      match worker.firedTimer event with
      | none => after.2.timers
      | some timer => (popTimer timer after.2).timers)
    (nextTimerId : later.nextTimerId = after.2.nextTimerId)
    (least : ∀ timer, worker.firedTimer event = some timer →
      ∀ other ∈ worker.timers, timer.expiryTime ≤ other.expiryTime) :
    Turned program worker event later := by
  have same : SameOutgoing after.2 (sent program worker event) := by
    have moved := outgoing.sendAll program.protocol sends
    unfold sent
    rw [turn]
    exact ran.outgoing.trans moved
  have registers : after.2.timers = allTimers program worker event := by
    unfold allTimers
    rw [turn, ran.timers, startTimers, startTimerId]
  constructor
  · intro entry found
    rw [turn] at found ⊢
    cases found
    exact own
  · intro transId different
    rw [turn] at different
    exact others transId different
  · rw [outQueue, same.outQueue]
  · rw [nextId, same.packages]
  · rw [bindList, same.bindList]
  · rw [timers, ← registers]
    rfl
  · rw [nextTimerId, ran.nextTimerId, startTimerId, turn]
  · exact least

theorem callOnePhase_sends {handler : Handler App Unit Message Unit}
    (called : callOnePhase program connId package worker handler =
      some later) :
    later.transList = worker.transList ∧ later.timers = worker.timers ∧
      later.nextTimerId = worker.nextTimerId ∧
      SameOutgoing later (sendAll program.protocol worker
        (onePhaseSends program.protocol connId worker.app package
          handler)) := by
  have moved (app : App) (sends : List (Send Message)) :
      SameOutgoing (sendAll program.protocol { worker with app := app } sends)
        (sendAll program.protocol worker sends) := by
    have same : SameOutgoing { worker with app := app } worker :=
      ⟨rfl, rfl, rfl⟩
    exact same.sendAll program.protocol sends
  have kept (app : App) (sends : List (Send Message)) :=
    sendAll_timers program.protocol { worker with app := app } sends
  unfold callOnePhase at called
  unfold onePhaseSends startFrame
  dsimp only at called ⊢
  split at called
  · rename_i ran
    cases called
    rw [ran]
    exact ⟨sendAll_transList .., (kept ..).1, (kept ..).2, moved ..⟩
  · cases called
  · rename_i thrown ran
    rw [ran]
    dsimp only
    split at called
    · cases called
    · rename_i errorInfo info
      rw [info]
      have both := Option.some.inj called
      rw [← sendAll_append] at both
      rw [← both]
      exact ⟨sendAll_transList .., (kept ..).1, (kept ..).2, moved ..⟩

theorem receive_turned
    (received : receive program now connId serviceId package worker =
      some later) :
    Turned program worker (.receive now connId serviceId package) later := by
  cases received_of_receive received with
  | unknown starts unregistered =>
      refine Turned.of_idle ?_ rfl rfl rfl ?_ rfl rfl ?_
      · simp [Worker.turn, receiveTurn, starts, unregistered]
      · simp only [answeredId, starts]
        rfl
      · intro timer fired
        cases fired
  | foreign answers mismatch =>
      refine Turned.of_idle ?_ rfl rfl rfl ?_ rfl rfl ?_
      · simp [Worker.turn, receiveTurn, answers, mismatch]
      · simp only [answeredId, answers]
        rfl
      · intro timer fired
        cases fired
  | @onePhase handler called starts registered call =>
      obtain ⟨sameList, timers, counted, outgoing⟩ := callOnePhase_sends call
      have turn : worker.turn program
          (.receive now connId serviceId package) =
            ⟨none, onePhaseSends program.protocol connId worker.app package
              (handler now connId package), [], false⟩ := by
        simp only [Worker.turn, receiveTurn, starts, registered]
      constructor
      · intro entry found
        rw [turn] at found
        cases found
      · intro transId _
        change called.transList[transId]? = _
        rw [sameList]
        rfl
      · unfold sent
        rw [turn]
        exact outgoing.outQueue
      · unfold sent
        rw [turn]
        change called.packages.nextId = _
        rw [outgoing.packages]
        rfl
      · simp only [answeredId, starts, sent, turn]
        exact outgoing.bindList
      · unfold allTimers
        rw [turn, List.append_nil]
        exact timers
      · rw [turn]
        exact counted.trans (Int.add_zero _).symm
      · intro timer fired
        cases fired
  | @multiplyPhase factory after starts registered call =>
      have ran := callTransaction_ran call
      have finished := finish_outgoing after
      have timers := finish_timers after
      refine Turned.of_ran ?_ ?_ ?_ ?_ ran (ran.finish_own rfl)
        (fun transId => ran.finish_others) finished.outQueue ?_ ?_ timers.1
        timers.2 ?_
      · simp only [Worker.turn, receiveTurn, starts, registered]
        rfl
      · exact ⟨rfl, rfl, rfl⟩
      · rfl
      · rfl
      · change (finish after).packages.nextId = _
        rw [finished.packages]
      · simp only [answeredId, starts]
        exact finished.bindList
      · intro timer fired
        cases fired
  | @active waiting after answers fits call =>
      have ran := callTransaction_ran call
      have finished := finish_outgoing after
      have timers := finish_timers after
      refine Turned.of_ran ?_ ⟨rfl, rfl, rfl⟩ rfl rfl ran
        (ran.finish_own rfl) (fun transId => ran.finish_others)
        finished.outQueue ?_ ?_ timers.1 timers.2 ?_
      · simp only [Worker.turn, receiveTurn, answers, fits]
        rfl
      · change (finish after).packages.nextId = _
        rw [finished.packages]
      · simp only [answeredId, answers]
        exact congrArg (Std.ExtTreeMap.erase · package.triggerPackageId)
          finished.bindList
      · intro timer fired
        cases fired

theorem dueTimer_spec {timerId : Int} {timer : Timer}
    (due : worker.dueTimer now timerId = some timer) :
    timer ∈ worker.timers ∧ timer.timerId = timerId ∧
      timer.expiryTime ≤ now := by
  unfold dueTimer at due
  rw [Option.filter_eq_some_iff] at due
  obtain ⟨found, late⟩ := due
  exact ⟨List.mem_of_find?_eq_some found,
    by simpa using List.find?_some found, by simpa using late⟩

/-- A timer fires only if no other one is earlier. -/
theorem least_of_processExpiryTimer {timerId : Int}
    (expired : processExpiryTimer program now timerId worker = some later)
    {timer : Timer} (due : worker.dueTimer now timerId = some timer) :
    ∀ other ∈ worker.timers, timer.expiryTime ≤ other.expiryTime := by
  unfold dueTimer at due
  rw [Option.filter_eq_some_iff] at due
  unfold processExpiryTimer at expired
  rw [due.1] at expired
  dsimp only at expired
  split at expired
  · cases expired
  · rename_i none
    intro other present
    rw [Bool.not_eq_true, List.any_eq_false] at none
    simpa using none other present

theorem expire_turned {timerId : Int}
    (expired : processExpiryTimer program now timerId worker = some later) :
    Turned program worker (.expire now timerId) later := by
  have least (timer : Timer)
      (fired : worker.firedTimer (.expire now timerId : Event Message Call) =
        some timer) :=
    least_of_processExpiryTimer expired fired
  cases expired_of_processExpiryTimer expired with
  | early notDue =>
      refine Turned.of_idle ?_ rfl rfl rfl rfl ?_ rfl least
      · simp only [Worker.turn, expireTurn, notDue]
      · simp only [firedTimer, notDue]
  | gone timer due unregistered =>
      refine Turned.of_idle ?_ rfl rfl rfl rfl ?_ rfl least
      · simp only [Worker.turn, expireTurn, due, unregistered]
      · simp only [firedTimer, due]
  | @ended waiting after timer due registered run =>
      have ran := runMember_ran run
      have result : .ok () = (timeoutOutcome program worker.app waiting).1 :=
        (Prod.mk.inj run).1.symm
      have finished := finish_outgoing after
      have timers := finish_timers after
      refine Turned.of_ran ?_ ⟨rfl, rfl, rfl⟩ rfl rfl ran
        (ran.finish_own rfl) (fun transId => ran.finish_others)
        finished.outQueue ?_ ?_ ?_ timers.2 least
      · simp only [Worker.turn, expireTurn, due, registered, timeoutTurn]
        rw [← result]
        rfl
      · change (finish after).packages.nextId = _
        rw [finished.packages]
      · exact finished.bindList
      · simp only [firedTimer, due, popTimer, timers.1]
  | @failed waiting fault after left timer due registered run =>
      have ran := runMember_ran run
      have result : .error fault =
          (timeoutOutcome program worker.app waiting).1 :=
        (Prod.mk.inj run).1.symm
      have transId := ran.transId
      have sameList := ran.transList
      dsimp only at transId sameList
      have turn : worker.turn program (.expire now timerId) =
          ⟨some waiting.clearWaitingState,
            (timeoutOutcome program worker.app waiting).2.sends,
            (timeoutOutcome program worker.app waiting).2.waits, true⟩ := by
        simp only [Worker.turn, expireTurn, due, registered, timeoutTurn]
        rw [← result]
      refine Turned.of_ran turn ⟨rfl, rfl, rfl⟩ rfl rfl ran ?_ ?_ rfl rfl rfl
        ?_ rfl least
      · rw [if_pos rfl]
        refine ⟨after.self, ?_⟩
        change (left.transList.insert after.id after)[_]? = _
        rw [← transId, Table.lookup_insert_self]
        exact congrArg some ran.entry
      · intro other different
        change (left.transList.insert after.id after)[other]? = _
        rw [Table.lookup_insert_of_ne, sameList]
        rw [transId]
        exact fun same => different (congrArg some same)
      · simp only [firedTimer, due, popTimer]

theorem step_turned {event : Event Message Call}
    (stepped : step program worker event = some later) :
    Turned program worker event later := by
  cases event with
  | receive now connId serviceId package => exact receive_turned stepped
  | internal call =>
      have called : callInternal program call worker = some later := stepped
      rw [eq_of_callInternal called]
      refine Turned.of_idle rfl rfl rfl rfl rfl rfl rfl ?_
      intro timer fired
      cases fired
  | expire now timerId => exact expire_turned stepped

end Steps

end Worker

end Foundation
end Spaceless
