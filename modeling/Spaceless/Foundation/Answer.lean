import Spaceless.Foundation.Timeout

/-!
# Programs that answer once

A handler of such a program makes its calls at its end: it answers to the
first connection, or asks a service and waits.  So a request is answered in
the turn in which its transaction ends, and its transaction has no turn after
that.
-/

namespace Spaceless
namespace Foundation

open Logic

/-! ## Answers -/

/-- The connection and the triggering package that a send answers to. -/
def Send.target {Message : Type}
    (send : Send Message) : Int × Int :=
  (send.connId, send.triggerPackageId)

/-- What `send_back_protocol` sends. -/
def Send.reply {Message : Type} (connId : Int) (message : Message)
    (source : PackageTriggerSource) : Send Message where
  connId := connId
  message := message
  bindTransId := 0
  triggerPackageId := source.packageId
  triggerCmd := source.command
  serviceId := 0

/-- The connection and the triggering package of a message on the queue. -/
def OutMessage.target {Message : Type}
    (out : OutMessage Message) : Int × Int :=
  (out.connId, out.package.triggerPackageId)

/-! ## Handlers that make their calls last -/

namespace Frame

variable {App Self Message α β : Type}

/-- The handler ends with the allowed calls, or fails before it makes one. -/
def CallsLast (allowed : List (Send Message) → List Wait → Prop)
    (handler : Handler App Self Message α) : Prop :=
  ∀ frame, Action.Ensures handler frame
    (fun _ later => ∃ sends waits, allowed sends waits ∧
      later.sends = frame.sends ++ sends ∧
      later.waits = frame.waits ++ waits)
    (fun _ later => later.sends = frame.sends ∧ later.waits = frame.waits)

/-- The calls that a handler has made. -/
def calls (frame : Frame App Self Message) : List (Send Message) × List Wait :=
  (frame.sends, frame.waits)

namespace CallsLast

variable {allowed : List (Send Message) → List Wait → Prop}

theorem mono {weaker : List (Send Message) → List Wait → Prop}
    {handler : Handler App Self Message α}
    (last : CallsLast allowed handler)
    (implies : ∀ sends waits, allowed sends waits → weaker sends waits) :
    CallsLast weaker handler := by
  intro frame
  apply (last frame).mono
  · rintro value later ⟨sends, waits, permitted, same⟩
    exact ⟨sends, waits, implies sends waits permitted, same⟩
  · exact fun fault later same => same

theorem throw (fault : Fault) :
    CallsLast allowed (throw fault : Handler App Self Message α) := by
  intro frame
  rw [Action.ensures_throw]
  exact ⟨rfl, rfl⟩

/-- A handler that makes no calls. -/
theorem of_preserves {handler : Handler App Self Message α}
    (quiet : Preserves calls handler) (nothing : allowed [] []) :
    CallsLast allowed handler := by
  intro frame
  apply (quiet.ensures frame).mono
  · intro value later same
    obtain ⟨sends, waits⟩ := Prod.mk.inj same
    exact ⟨[], [], nothing, by simp [sends], by simp [waits]⟩
  · exact fun fault later same => Prod.mk.inj same

theorem sendBackProtocol {connId : Int} {message : Message}
    {source : PackageTriggerSource}
    (permitted : allowed [.reply connId message source] []) :
    CallsLast allowed (Frame.sendBackProtocol connId message source :
      Handler App Self Message Unit) := by
  intro frame
  rw [ensures_sendBackProtocol]
  exact ⟨_, [], permitted, rfl, (List.append_nil _).symm⟩

/-- Ask a service, and wait for its answer. -/
theorem ask {serviceId cmd bindTransId : Int} {message : Message}
    (permitted : allowed
      [{ connId := 0, message := message, bindTransId := bindTransId
         triggerPackageId := 0, triggerCmd := 0, serviceId := serviceId }]
      [{ connId := 0, cmd := cmd, timeout := defaultTimeout
         serviceId := serviceId }]) :
    CallsLast allowed (do
      Frame.serviceSendProtocol serviceId message bindTransId
      Frame.serviceWaitNextPhase serviceId cmd :
        Handler App Self Message Unit) := by
  intro frame
  rw [Action.ensures_bind, ensures_serviceSendProtocol,
    ensures_serviceWaitNextPhase]
  exact ⟨_, _, permitted, rfl, rfl⟩

theorem bind {first : Handler App Self Message α}
    {next : α → Handler App Self Message β}
    (before : Preserves calls first)
    (after : ∀ value, CallsLast allowed (next value)) :
    CallsLast allowed (first >>= next) := by
  intro frame
  rw [Action.ensures_bind]
  apply (before.ensures frame).mono
  · intro value later same
    obtain ⟨sends, waits⟩ := Prod.mk.inj same
    rw [← sends, ← waits]
    exact after value later
  · exact fun fault later same => Prod.mk.inj same

end CallsLast

end Frame

namespace Worker

variable {App Self Message Call : Type}

/-! ## What reaches the queue -/

/-- `send_protocol` drops a message with a larger content. -/
def fits (protocol : Protocol Message) (send : Send Message) : Bool :=
  protocol.messageSize send.message ≤ maxContentLen

theorem sendProtocol_outQueue (protocol : Protocol Message)
    (worker : Worker App Self Message) (send : Send Message) :
    ∃ pushed, (sendProtocol protocol worker send).outQueue =
        worker.outQueue ++ pushed ∧
      pushed.map OutMessage.target =
        if fits protocol send then [send.target] else [] := by
  unfold sendProtocol
  by_cases large : maxContentLen < protocol.messageSize send.message
  · have dropped : ¬fits protocol send = true := by simpa [fits] using large
    rw [if_pos large, if_neg dropped]
    exact ⟨[], (List.append_nil _).symm, rfl⟩
  · have kept : fits protocol send = true := by simpa [fits] using large
    rw [if_neg large, if_pos kept]
    exact ⟨_, rfl, rfl⟩

/-- What is pushed answers to what the sends that fit answer to. -/
theorem sendAll_outQueue (protocol : Protocol Message)
    (worker : Worker App Self Message) (sends : List (Send Message)) :
    ∃ pushed, (sendAll protocol worker sends).outQueue =
        worker.outQueue ++ pushed ∧
      pushed.map OutMessage.target =
        (sends.filter (fits protocol)).map Send.target := by
  induction sends generalizing worker with
  | nil => exact ⟨[], (List.append_nil _).symm, rfl⟩
  | cons send sends inductionHypothesis =>
      obtain ⟨first, queue, target⟩ :=
        sendProtocol_outQueue protocol worker send
      obtain ⟨rest, longer, targets⟩ :=
        inductionHypothesis (sendProtocol protocol worker send)
      refine ⟨first ++ rest, ?_, ?_⟩
      · rw [queue, List.append_assoc] at longer
        exact longer
      · rw [List.map_append, target, targets, List.filter_cons]
        split <;> rfl

/-- The targets at a connection; a send to a service names none. -/
def clients (targets : List (Int × Int)) : List (Int × Int) :=
  targets.filter fun target => target.1 ≠ 0

/-! ## Programs that answer once -/

variable (program : Program App Self Message Call)

/-- A one-phase handler and `on_active` answer to the request and do nothing
else, `on_init` only asks services, and `on_error` answers. -/
structure AnswersOnce : Prop where
  onePhase : ∀ command handler,
    program.findTransaction command = some (.onePhase handler) →
    ∀ now connId package, Frame.CallsLast
      (fun sends _ => ∃ message,
        sends = [Send.reply connId message package.triggerSource])
      (handler now connId package)
  onInit : ∀ trans connId package, Frame.CallsLast
    (fun sends _ => ∀ send ∈ sends, send.connId = 0)
    (program.onInit trans connId package)
  onActive : ∀ trans connId package, Frame.CallsLast
    (fun sends waits => waits = [] ∧ (sends = [] ∨ ∃ message,
      sends = [.reply trans.firstConnId message trans.firstTriggerSource]))
    (program.onActive trans connId package)
  onError : ∀ trans connId errorInfo frame,
    (program.onError trans connId errorInfo frame).1 = .ok () ∧
      ((program.onError trans connId errorInfo).after frame).sends =
        frame.sends ++ [.reply trans.firstConnId
          (program.protocol.rspError errorInfo) trans.firstTriggerSource] ∧
      ((program.onError trans connId errorInfo).after frame).waits =
        frame.waits

variable {program}

/-- A member that fails before it makes a call leaves the answer of the error
handler. -/
theorem AnswersOnce.memberCalls_of_failed (once : AnswersOnce program)
    {handler : Handler App Self Message Unit} (connId : Int) {app : App}
    {trans : MultiplyPhaseTransaction Self}
    {frame : Frame App Self Message} {thrown : Exception}
    {errorInfo : ErrorInfo}
    (ran : handler (startFrame app trans.self) =
      (.error (.exception thrown), frame))
    (info : getErrorInfo thrown = .ok errorInfo) (sent : frame.sends = [])
    (waited : frame.waits = []) :
    memberCalls program connId app trans handler =
      ([.reply trans.firstConnId (program.protocol.rspError errorInfo)
        trans.firstTriggerSource], []) := by
  obtain ⟨-, answered, quiet⟩ := once.onError
    (afterWaits trans frame.self frame.waits) connId errorInfo
    (startFrame frame.app frame.self)
  rw [memberCalls_of_error ran info, answered, quiet, sent, waited]
  rfl

/-- The calls of a member that makes its calls last: its own, or the answer of
the error handler, or none when the process ends there. -/
theorem AnswersOnce.memberCalls_cases (once : AnswersOnce program)
    {allowed : List (Send Message) → List Wait → Prop}
    {handler : Handler App Self Message Unit}
    (ends : Frame.CallsLast allowed handler) (connId : Int) (app : App)
    (trans : MultiplyPhaseTransaction Self) :
    let calls := memberCalls program connId app trans handler
    allowed calls.1 calls.2 ∨
      calls.2 = [] ∧ (calls.1 = [] ∨ ∃ errorInfo, calls.1 =
        [.reply trans.firstConnId (program.protocol.rspError errorInfo)
          trans.firstTriggerSource]) := by
  have outcome := ends (startFrame app trans.self)
  cases ran : handler (startFrame app trans.self) with
  | mk result frame =>
      cases result with
      | ok value =>
          obtain ⟨sends, waits, permitted, sent, waited⟩ := outcome.of_ok ran
          rw [memberCalls_of_ok ran]
          rw [startFrame, List.nil_append] at sent waited
          exact Or.inl (by rw [sent, waited]; exact permitted)
      | error fault =>
          obtain ⟨sent, waited⟩ := outcome.of_error ran
          rw [startFrame] at sent waited
          right
          cases fault with
          | undefined =>
              simp only [memberCalls, ran]
              exact ⟨waited, Or.inl sent⟩
          | exception thrown =>
              cases info : getErrorInfo thrown with
              | error other =>
                  simp only [memberCalls, ran, info]
                  exact ⟨waited, Or.inl sent⟩
              | ok errorInfo =>
                  rw [once.memberCalls_of_failed _ ran info sent waited]
                  exact ⟨rfl, Or.inr ⟨errorInfo, rfl⟩⟩

theorem AnswersOnce.onePhaseSends_cases (once : AnswersOnce program)
    {command : Int}
    {handler : Int → Int → Package Message → Handler App Unit Message Unit}
    (registered : program.findTransaction command = some (.onePhase handler))
    (now connId : Int) (package : Package Message) (app : App) :
    let sends := onePhaseSends program.protocol connId app package
      (handler now connId package)
    sends = [] ∨ ∃ message,
      sends = [.reply connId message package.triggerSource] := by
  have outcome := once.onePhase command handler registered now connId package
    (startFrame app ())
  cases ran : handler now connId package (startFrame app ()) with
  | mk result frame =>
      cases result with
      | ok value =>
          obtain ⟨sends, waits, ⟨message, rfl⟩, sent, -⟩ := outcome.of_ok ran
          simp only [onePhaseSends, ran]
          exact Or.inr ⟨message, sent⟩
      | error fault =>
          have sent : frame.sends = [] := (outcome.of_error ran).1
          cases fault with
          | undefined =>
              simp only [onePhaseSends, ran]
              exact Or.inl sent
          | exception thrown =>
              cases info : getErrorInfo thrown with
              | error other =>
                  simp only [onePhaseSends, ran, info]
                  exact Or.inl sent
              | ok errorInfo =>
                  simp only [onePhaseSends, ran, info, sent]
                  exact Or.inr ⟨program.protocol.rspError errorInfo, rfl⟩

section Turn

variable {worker : Worker App Self Message} {event : Event Message Call}
  {turn : Turn Self Message}

/-- The target of the answer to a transaction. -/
def target (trans : MultiplyPhaseTransaction Self) : Int × Int :=
  (trans.firstConnId, trans.firstTriggerSource.packageId)

theorem clients_reply (trans : MultiplyPhaseTransaction Self)
    (message : Message) :
    (clients ([Send.reply trans.firstConnId message
      trans.firstTriggerSource].map Send.target)).Sublist [target trans] :=
  List.filter_sublist

theorem clients_eq_nil {sends : List (Send Message)}
    (services : ∀ send ∈ sends, send.connId = 0) :
    clients (sends.map Send.target) = [] := by
  rw [clients, List.filter_eq_nil_iff]
  intro other present
  obtain ⟨send, sent, rfl⟩ := List.mem_map.mp present
  simp [Send.target, services send sent]

/-- In its turn a transaction is kept and not answered, or it ends with one
answer at most. -/
theorem AnswersOnce.turn_answers (once : AnswersOnce program)
    (turns : Turns program worker event turn)
    {trans : MultiplyPhaseTransaction Self}
    (own : turn.trans = some trans) :
    clients (turn.sends.map Send.target) = [] ∨
      turn.keeps = false ∧
        (clients (turn.sends.map Send.target)).Sublist [target trans] := by
  cases turns with
  | idle => cases own
  | onePhase starts registered => cases own
  | @starts now connId serviceId package factory starts registered =>
      cases own
      rcases once.memberCalls_cases (once.onInit (.init worker.nextTransId
        factory connId package.triggerSource) connId package) connId
        worker.app (.init worker.nextTransId factory connId
          package.triggerSource) with
        services | ⟨quiet, nothing | ⟨errorInfo, answer⟩⟩
      · exact Or.inl (clients_eq_nil services)
      · left
        rw [memberTurn, nothing]
        rfl
      · right
        rw [memberTurn, answer, quiet]
        exact ⟨rfl, clients_reply _ _⟩
  | @active now connId serviceId package waiting answers fits =>
      cases own
      rcases once.memberCalls_cases (once.onActive waiting.clearWaitingState
        connId package) connId worker.app waiting.clearWaitingState with
        ⟨quiet, nothing | ⟨message, answer⟩⟩ |
          ⟨quiet, nothing | ⟨errorInfo, answer⟩⟩
      · left
        rw [memberTurn, nothing]
        rfl
      · right
        rw [memberTurn, answer, quiet]
        exact ⟨rfl, clients_reply _ _⟩
      · left
        rw [memberTurn, nothing]
        rfl
      · right
        rw [memberTurn, answer, quiet]
        exact ⟨rfl, clients_reply _ _⟩
  | @timeout now timerId timer waiting due registered =>
      cases own
      obtain ⟨ok, answer, quiet⟩ := once.onError waiting.clearWaitingState
        waiting.waitConnId (toErrorInfo .errTransactionTimeout)
        (startFrame worker.app waiting.self)
      have returned : (timeoutOutcome program worker.app waiting).1 =
          .ok () := ok
      have answered : (timeoutOutcome program worker.app waiting).2.sends =
          _ := answer
      have waited : (timeoutOutcome program worker.app waiting).2.waits =
          [] := quiet
      right
      simp only [timeoutTurn, returned, waited, answered]
      exact ⟨rfl, clients_reply _ _⟩

/-- Without a transaction, a turn answers the received package at most. -/
theorem AnswersOnce.onePhase_answers (once : AnswersOnce program)
    (turns : Turns program worker event turn) (none : turn.trans = none) :
    turn.sends = [] ∨ ∃ now connId serviceId package message,
      event = .receive now connId serviceId package ∧
        (program.findTransaction package.command).isSome ∧
        turn.sends = [.reply connId message package.triggerSource] := by
  cases turns with
  | idle => exact Or.inl rfl
  | @onePhase now connId serviceId package handler starts registered =>
      apply (once.onePhaseSends_cases registered now connId package
        worker.app).imp_right
      intro answer
      obtain ⟨message, sent⟩ := answer
      exact ⟨now, connId, serviceId, package, message, rfl, by
        rw [registered]
        rfl, sent⟩
  | starts starts registered => cases none
  | active answers fits => cases none
  | timeout due registered => cases none

end Turn

/-! ## Runs -/

section Runs

variable {worker later : Worker App Self Message}
  {event : Event Message Call}

theorem Turned.pushed (turned : Turned program worker event later) :
    ∃ pushed, later.outQueue = worker.outQueue ++ pushed ∧
      pushed.map OutMessage.target =
        ((worker.turn program event).sends.filter
          (fits program.protocol)).map Send.target := by
  have same : (worker.sending event).outQueue = worker.outQueue := by
    cases event <;> rfl
  have queue := turned.outQueue
  obtain ⟨pushed, longer, targets⟩ := sendAll_outQueue program.protocol
    (worker.sending event) (worker.turn program event).sends
  rw [sent, longer, same] at queue
  exact ⟨pushed, queue, targets⟩

variable (program) in
/-- What a step puts on the queue for connections, if the transaction has its
turn in it. -/
def answers (transId : Int) (worker : Worker App Self Message)
    (event : Event Message Call) (later : Worker App Self Message) :
    List (OutMessage Message) :=
  if (worker.turn program event).transId = some transId then
    (later.outQueue.drop worker.outQueue.length).filter fun out =>
      out.connId ≠ 0
  else []

/-- The targets of these messages are among those of the sends. -/
theorem Turned.answers_sublist (turned : Turned program worker event later)
    (transId : Int) :
    ((answers program transId worker event later).map
      OutMessage.target).Sublist
      (clients ((worker.turn program event).sends.map Send.target)) := by
  obtain ⟨pushed, queue, targets⟩ := turned.pushed
  unfold answers
  split
  · rw [queue, List.drop_left]
    have same : (pushed.filter fun out => out.connId ≠ 0).map
        OutMessage.target = clients (pushed.map OutMessage.target) := by
      rw [clients, List.filter_map]
      rfl
    rw [same, targets]
    exact (List.filter_sublist.map _).filter _
  · exact List.nil_sublist _

/-- The transaction is registered, and answers to the target. -/
structure Open (transId : Int) (aim : Int × Int)
    (worker : Worker App Self Message) : Prop where
  ids : worker.TransIds
  registered : ∃ trans, worker.transList[transId]? = some trans ∧
    target trans = aim

/-- The transaction has ended. -/
structure Closed (transId : Int) (worker : Worker App Self Message) :
    Prop where
  ids : worker.TransIds
  known : transId < worker.nextTransId
  ended : worker.transList[transId]? = none

@[simp] theorem afterWaits_target (trans : MultiplyPhaseTransaction Self)
    (self : Self) (waits : List Wait) :
    target (afterWaits trans self waits) = target trans := by
  have kept (trans : MultiplyPhaseTransaction Self) :
      target (waits.foldl MultiplyPhaseTransaction.waitNextPhase trans) =
        target trans := by
    induction waits generalizing trans with
    | nil => rfl
    | cons wait waits inductionHypothesis =>
        exact inductionHypothesis (trans.waitNextPhase wait)
  exact kept _

/-- A transaction that has ended has no turn. -/
theorem Closed.transId_ne {transId : Int} (closed : Closed transId worker)
    (event : Event Message Call) :
    (worker.turn program event).transId ≠ some transId := by
  intro has
  obtain ⟨trans, own, rfl⟩ := Option.map_eq_some_iff.mp has
  rcases (turns program worker event).trans_cases closed.ids own with
    new | ⟨waiting, registered, -⟩
  · have known := closed.known
    omega
  · rw [closed.ended] at registered
    cases registered

theorem Closed.step {transId : Int} (closed : Closed transId worker)
    (stepped : step program worker event = some later) :
    Closed transId later ∧ answers program transId worker event later = [] := by
  have away : (worker.turn program event).transId ≠ some transId :=
    closed.transId_ne event
  have turned := step_turned stepped
  have grows := step_nextTransId_le stepped
  refine ⟨⟨closed.ids.step stepped, ?_, ?_⟩, if_neg away⟩
  · exact Int.lt_of_lt_of_le closed.known grows
  · rw [turned.others transId away]
    exact closed.ended

/-- What the turn of a transaction leaves of it. -/
theorem AnswersOnce.own_step (once : AnswersOnce program)
    (ids : worker.TransIds)
    (stepped : Worker.step program worker event = some later)
    {trans : MultiplyPhaseTransaction Self}
    (own : (worker.turn program event).trans = some trans)
    (known : trans.id < later.nextTransId) :
    Open trans.id (target trans) later ∧
        answers program trans.id worker event later = [] ∨
      Closed trans.id later ∧
        (answers program trans.id worker event later).length ≤ 1 ∧
        ∀ out ∈ answers program trans.id worker event later,
          out.target = target trans := by
  have turned := step_turned stepped
  have among := turned.answers_sublist trans.id
  have leaves := turned.own trans own
  have idsAfter := ids.step stepped
  have none_of (nothing : clients ((worker.turn program event).sends.map
      Send.target) = []) :
      answers program trans.id worker event later = [] := by
    rw [nothing] at among
    exact List.map_eq_nil_iff.mp (List.sublist_nil.mp among)
  rcases once.turn_answers (turns program worker event) own with
    nothing | ⟨ends, answered⟩
  · by_cases keeps : (worker.turn program event).keeps = true
    · rw [if_pos keeps] at leaves
      obtain ⟨self, registered⟩ := leaves
      exact Or.inl ⟨⟨idsAfter, _, registered, afterWaits_target _ _ _⟩,
        none_of nothing⟩
    · rw [if_neg keeps] at leaves
      rw [none_of nothing]
      exact Or.inr ⟨⟨idsAfter, known, leaves⟩, Nat.zero_le 1,
        List.forall_mem_nil _⟩
  · rw [if_neg (by simp [ends])] at leaves
    have within := among.trans answered
    refine Or.inr ⟨⟨idsAfter, known, leaves⟩, ?_, ?_⟩
    · simpa using within.length_le
    · intro out present
      have aimed := within.subset (List.mem_map_of_mem present)
      exact List.mem_singleton.mp aimed

theorem AnswersOnce.open_step (once : AnswersOnce program) {transId : Int}
    {aim : Int × Int} (opened : Open transId aim worker)
    (stepped : Worker.step program worker event = some later) :
    Open transId aim later ∧
        answers program transId worker event later = [] ∨
      Closed transId later ∧
        (answers program transId worker event later).length ≤ 1 ∧
        ∀ out ∈ answers program transId worker event later,
          out.target = aim := by
  obtain ⟨ids, entry, registered, rfl⟩ := opened
  by_cases has : (worker.turn program event).transId = some transId
  · obtain ⟨trans, own, rfl⟩ := Option.map_eq_some_iff.mp has
    have known := (ids _ _ registered).2
    have grows := step_nextTransId_le stepped
    rcases (turns program worker event).trans_cases ids own with
      new | ⟨waiting, same, rfl⟩
    · omega
    · rw [registered] at same
      cases same
      exact once.own_step ids stepped own (by omega)
  · left
    refine ⟨⟨ids.step stepped, entry, ?_, rfl⟩, if_neg has⟩
    rw [(step_turned stepped).others transId has]
    exact registered

/-! ## Requests and their responses -/

theorem transIds_of_reaches {app : App}
    {events : List (Event Message Call)}
    (reaches : (machine program app).Reaches events worker) :
    worker.TransIds := by
  apply Machine.Reachable.invariant _ _ ⟨events, reaches⟩
  · intro transId trans found
    simp [machine, init] at found
  · intro worker event later ids stepped
    exact ids.step stepped

section Rest

variable {app : App} {transId : Int} {events : List (Event Message Call)}
  {last : Worker App Self Message}

theorem Closed.outputs (closed : Closed transId worker)
    (run : (machine program app).run worker events = some last) :
    Closed transId last ∧ (machine program app).outputs
      (answers program transId) worker events = [] := by
  apply Machine.outputs_eq_nil _ closed run
  intro worker event next closed stepped
  exact closed.step stepped

theorem AnswersOnce.open_outputs (once : AnswersOnce program)
    {aim : Int × Int} (opened : Open transId aim worker)
    (run : (machine program app).run worker events = some last) :
    let responses := (machine program app).outputs
      (answers program transId) worker events
    responses.length ≤ 1 ∧ (∀ out ∈ responses, out.target = aim) ∧
      (Open transId aim last ∧ responses = [] ∨ Closed transId last) := by
  apply Machine.outputs_once _ _ opened run
  · intro worker event next closed stepped
    exact closed.step stepped
  · intro worker event next opened stepped
    exact once.open_step opened stepped

end Rest

/-- A transaction is answered once, and has no turn after that. -/
theorem AnswersOnce.outputs_once (once : AnswersOnce program) {app : App}
    {before rest : List (Event Message Call)} {now connId serviceId : Int}
    {package : Package Message} {last : Worker App Self Message}
    (reaches : (machine program app).Reaches before worker)
    (starts : Starts program package worker)
    (run : (machine program app).run worker
      (.receive now connId serviceId package :: rest) = some last) :
    let responses := (machine program app).outputs
      (answers program worker.nextTransId) worker
      (.receive now connId serviceId package :: rest)
    responses.length ≤ 1 ∧
      (∀ out ∈ responses, out.target = (connId, package.selfPackageId)) ∧
      (responses ≠ [] → ∀ event,
        (last.turn program event).transId ≠ some worker.nextTransId) := by
  intro responses
  obtain ⟨next, stepped, later⟩ := Option.bind_eq_some_iff.mp run
  have parts : responses =
      answers program worker.nextTransId worker
        (.receive now connId serviceId package) next ++
      (machine program app).outputs (answers program worker.nextTransId)
        next rest := Machine.outputs_cons stepped rest
  obtain ⟨factory, registered⟩ := starts.registered
  let trans := MultiplyPhaseTransaction.init worker.nextTransId factory
    connId package.triggerSource
  have own : (worker.turn program
      (.receive now connId serviceId package)).trans = some trans := by
    simp only [turn, receiveTurn, starts.unanswered, registered, memberTurn,
      trans]
  have received : receive program now connId serviceId package worker =
      some next := stepped
  have counted : next.nextTransId = worker.nextTransId + 1 :=
    (receive_nextTransId received).elim And.right
      fun other => absurd starts other.1
  have known : trans.id < next.nextTransId := by
    change worker.nextTransId < next.nextTransId
    omega
  have outcome := once.own_step (transIds_of_reaches reaches)
    (show step program worker (.receive now connId serviceId package) =
      some next from stepped) own known
  rcases outcome with ⟨opened, nothing⟩ | ⟨closed, short, aimed⟩
  · obtain ⟨short, aimed, ends⟩ := once.open_outputs opened later
    have same : responses = (machine program app).outputs
        (answers program worker.nextTransId) next rest :=
      parts.trans (congrArg (· ++ _) nothing)
    rw [same]
    refine ⟨short, aimed, fun answered event => ?_⟩
    rcases ends with ⟨-, none⟩ | closed
    · exact absurd none answered
    · exact closed.transId_ne event
  · obtain ⟨atEnd, nothing⟩ := closed.outputs later
    have same : responses = answers program worker.nextTransId worker
        (.receive now connId serviceId package) next :=
      parts.trans ((congrArg (_ ++ ·) nothing).trans (List.append_nil _))
    rw [same]
    exact ⟨short, aimed, fun _ event => atEnd.transId_ne event⟩

/-! ## As many responses as requests -/

variable (program) in
/-- The package has a registered command, and answers to it go to the
target. -/
def isRequest (aim : Int × Int) : Event Message Call → Bool
  | .receive _ connId _ package =>
      (connId, package.selfPackageId) = aim &&
        (program.findTransaction package.command).isSome
  | _ => false

/-- The number of responses on the queue with the target. -/
def responses (worker : Worker App Self Message) (aim : Int × Int) : Nat :=
  (worker.outQueue.map OutMessage.target).count aim

/-- The number of registered transactions that answer to the target. -/
def unanswered (worker : Worker App Self Message) (aim : Int × Int) : Nat :=
  worker.transList.count fun trans => target trans = aim

section Requests

variable {aim : Int × Int}

/-- A transaction that has its turn is new, and the package that starts it is
a request, or it was registered. -/
theorem Turns.target_cases {turn : Turn Self Message}
    (turns : Turns program worker event turn) (ids : worker.TransIds)
    {trans : MultiplyPhaseTransaction Self} (own : turn.trans = some trans) :
    worker.transList[trans.id]? = none ∧
        isRequest program (target trans) event = true ∨
      ∃ waiting, worker.transList[trans.id]? = some waiting ∧
        target waiting = target trans := by
  cases turns with
  | idle => cases own
  | onePhase starts registered => cases own
  | @starts now connId serviceId package factory starts registered =>
      cases own
      left
      constructor
      · cases found : worker.transList[worker.nextTransId]? with
        | none => exact found
        | some other => exact absurd (ids _ _ found).2 (Int.lt_irrefl _)
      · simp [isRequest, registered, target, MultiplyPhaseTransaction.init,
          Package.triggerSource]
  | @active now connId serviceId package waiting answers fits =>
      cases own
      obtain ⟨transId, -, registered, rfl, -⟩ := ids.waiting answers
      exact Or.inr ⟨waiting, registered, rfl⟩
  | @timeout now timerId timer waiting due registered =>
      cases own
      rw [← (ids _ _ registered).1] at registered
      exact Or.inr ⟨waiting, registered, rfl⟩

theorem count_clients (client : aim.1 ≠ 0) (targets : List (Int × Int)) :
    (clients targets).count aim = targets.count aim :=
  List.count_filter (by simp [client])

theorem Turned.responses_le (turned : Turned program worker event later)
    (client : aim.1 ≠ 0) :
    later.responses aim ≤ worker.responses aim +
      (clients ((worker.turn program event).sends.map Send.target)).count
        aim := by
  obtain ⟨pushed, queue, targets⟩ := turned.pushed
  have kept : ((worker.turn program event).sends.filter
      (fits program.protocol)).Sublist (worker.turn program event).sends :=
    List.filter_sublist
  have fewer := kept.map Send.target
  rw [count_clients client, responses, responses, queue, List.map_append,
    List.count_append, targets]
  have counted := fewer.count_le aim
  omega

/-- Whether there is an entry that answers to the target, as a number. -/
def hits (aim : Int × Int)
    (entry : Option (MultiplyPhaseTransaction Self)) : Nat :=
  if entry.any fun trans => target trans = aim then 1 else 0

theorem hits_some (aim : Int × Int) (trans : MultiplyPhaseTransaction Self) :
    hits aim (some trans) = if target trans = aim then 1 else 0 := by
  simp [hits]

theorem hits_none (aim : Int × Int) :
    hits aim (none : Option (MultiplyPhaseTransaction Self)) = 0 := rfl

/-- A transaction that has its turn is answered or still registered
afterwards, but not both. -/
theorem AnswersOnce.answered_or_kept (once : AnswersOnce program)
    (turned : Turned program worker event later)
    {trans : MultiplyPhaseTransaction Self}
    (own : (worker.turn program event).trans = some trans) :
    (clients ((worker.turn program event).sends.map Send.target)).count aim +
      hits aim later.transList[trans.id]? ≤ hits aim (some trans) := by
  have leaves := turned.own trans own
  rcases once.turn_answers (turns program worker event) own with
    nothing | ⟨ends, answered⟩
  · rw [nothing, List.count_nil, Nat.zero_add]
    by_cases keeps : (worker.turn program event).keeps = true
    · rw [if_pos keeps] at leaves
      obtain ⟨self, registered⟩ := leaves
      have same : hits aim later.transList[trans.id]? =
          hits aim (some trans) := by
        rw [registered, hits_some, hits_some, afterWaits_target]
      exact Nat.le_of_eq same
    · rw [if_neg keeps] at leaves
      rw [leaves, hits_none]
      exact Nat.zero_le _
  · rw [if_neg (by simp [ends])] at leaves
    rw [leaves, hits_none, Nat.add_zero, hits_some]
    have fewer := answered.count_le aim
    rw [List.count_singleton] at fewer
    simpa using fewer

/-- A transaction that has its turn was registered, or is asked for. -/
theorem hits_le_of_turns (ids : worker.TransIds)
    {trans : MultiplyPhaseTransaction Self}
    (own : (worker.turn program event).trans = some trans) :
    hits aim (some trans) ≤ hits aim worker.transList[trans.id]? +
      if isRequest program aim event then 1 else 0 := by
  rcases (turns program worker event).target_cases ids own with
    ⟨-, asked⟩ | ⟨waiting, registered, same⟩
  · rw [hits_some]
    split
    · rename_i aimed
      rw [aimed] at asked
      rw [if_pos asked]
      omega
    · exact Nat.zero_le _
  · rw [registered, hits_some, hits_some, same]
    exact Nat.le_add_right _ _

/-- A step answers at most the requests that were open and the one it
receives. -/
theorem AnswersOnce.responses_step (once : AnswersOnce program)
    (ids : worker.TransIds) (client : aim.1 ≠ 0)
    (stepped : Worker.step program worker event = some later) :
    later.responses aim + later.unanswered aim ≤
      worker.responses aim + worker.unanswered aim +
        if isRequest program aim event then 1 else 0 := by
  have turned := step_turned stepped
  have kinds := turns program worker event
  have pushed := turned.responses_le client
  cases own : (worker.turn program event).trans with
  | none =>
      have away : (worker.turn program event).transId = none := by
        rw [Turn.transId, own]
        rfl
      have same : later.transList = worker.transList := by
        apply Std.ExtTreeMap.ext_getElem?
        intro transId
        exact turned.others transId (by simp [away])
      have open_same : later.unanswered aim = worker.unanswered aim := by
        rw [unanswered, same, unanswered]
      rcases once.onePhase_answers kinds own with
        nothing | ⟨now, connId, serviceId, package, message, rfl,
          registered, answer⟩
      · rw [nothing] at pushed
        change _ ≤ _ + 0 at pushed
        omega
      · have counted : (clients ((worker.turn program (.receive now connId
            serviceId package)).sends.map Send.target)).count aim ≤
            if isRequest program aim (.receive now connId serviceId package :
              Event Message Call) then 1 else 0 := by
          rw [count_clients client, answer, isRequest, registered]
          simp only [List.map_singleton, Bool.and_true, decide_eq_true_eq,
            List.count_singleton, beq_iff_eq]
          exact Nat.le_refl _
        omega
  | some trans =>
      have away (transId : Int) (other : trans.id ≠ transId) :
          later.transList[transId]? = worker.transList[transId]? := by
        apply turned.others
        rw [Turn.transId, own]
        simpa using other
      have balance : later.unanswered aim +
          hits aim worker.transList[trans.id]? =
          worker.unanswered aim + hits aim later.transList[trans.id]? :=
        Table.count_of_agree trans.id away fun entry => target entry = aim
      have leaves : (clients ((worker.turn program event).sends.map
            Send.target)).count aim +
          hits aim later.transList[trans.id]? ≤ hits aim (some trans) :=
        once.answered_or_kept turned own
      have comes : hits aim (some trans) ≤
          hits aim worker.transList[trans.id]? +
            if isRequest program aim event then 1 else 0 :=
        hits_le_of_turns ids own
      omega

/-- There are at most as many responses to a package id of a connection as
requests with it. -/
theorem AnswersOnce.responses_le (once : AnswersOnce program) {app : App}
    (client : aim.1 ≠ 0) {events : List (Event Message Call)}
    (reaches : (machine program app).Reaches events worker) :
    worker.responses aim ≤ events.countP (isRequest program aim) := by
  have bounded : worker.responses aim + worker.unanswered aim ≤
      events.countP (isRequest program aim) := by
    apply Machine.Reaches.induction (motive := fun events worker =>
      worker.responses aim + worker.unanswered aim ≤
        events.countP (isRequest program aim)) _ _ reaches
    · simp [machine, init, responses, unanswered]
    · intro events worker event next before bounded stepped
      have grows := once.responses_step (transIds_of_reaches before) client
        stepped
      rw [List.countP_append, List.countP_singleton]
      omega
  omega

end Requests

/-! ## Requests that end -/

/-- The step puts a package for the target on the queue. -/
def Answered (worker later : Worker App Self Message) (aim : Int × Int) :
    Prop :=
  ∃ pushed, later.outQueue = worker.outQueue ++ pushed ∧
    aim ∈ pushed.map OutMessage.target

variable (program worker) in
/-- The worker finishes a request in the step: a one-phase handler and its
error handler have returned, or the transaction of the request is removed. -/
inductive Finishes : Event Message Call → Worker App Self Message →
    Int × Int → Prop
  | onePhase {now connId serviceId : Int} {package : Package Message}
      {handler : Int → Int → Package Message → Handler App Unit Message Unit}
      {later : Worker App Self Message}
      (starts : worker.waitingTransaction package = none)
      (registered : program.findTransaction package.command =
        some (.onePhase handler)) :
      Finishes (.receive now connId serviceId package) later
        (connId, package.selfPackageId)
  | multiplyPhase {event : Event Message Call}
      {later : Worker App Self Message}
      {trans : MultiplyPhaseTransaction Self}
      (own : (worker.turn program event).trans = some trans)
      (ended : later.transList[trans.id]? = none) :
      Finishes event later (target trans)

variable (program worker later event) in
/-- Every request that the step finishes is answered in it. -/
def AnswersFinished : Prop :=
  ∀ aim, Finishes program worker event later aim → Answered worker later aim

theorem Turned.answered_iff (turned : Turned program worker event later)
    {aim : Int × Int} :
    Answered worker later aim ↔
      ∃ send ∈ (worker.turn program event).sends,
        fits program.protocol send = true ∧ send.target = aim := by
  obtain ⟨pushed, queue, targets⟩ := turned.pushed
  have same : Answered worker later aim ↔
      aim ∈ pushed.map OutMessage.target := by
    constructor
    · rintro ⟨other, longer, present⟩
      rw [queue] at longer
      rw [List.append_cancel_left longer]
      exact present
    · exact fun present => ⟨pushed, queue, present⟩
  rw [same, targets, List.mem_map]
  simp only [List.mem_filter, and_assoc]

/-- A step that sends one reply answers exactly if it fits. -/
theorem Turned.answered_reply (turned : Turned program worker event later)
    {connId : Int} {message : Message} {source : PackageTriggerSource}
    (sends : (worker.turn program event).sends =
      [.reply connId message source]) :
    Answered worker later (connId, source.packageId) ↔
      program.protocol.messageSize message ≤ maxContentLen := by
  rw [turned.answered_iff, sends]
  simp [fits, Send.reply, Send.target]

theorem Turned.not_answered (turned : Turned program worker event later)
    (sends : (worker.turn program event).sends = []) (aim : Int × Int) :
    ¬Answered worker later aim := by
  rw [turned.answered_iff, sends]
  rintro ⟨send, sent, -⟩
  cases sent

/-- A step that ends or keeps a transaction. -/
theorem Turned.answersFinished_iff (turned : Turned program worker event later)
    {trans : MultiplyPhaseTransaction Self}
    (own : (worker.turn program event).trans = some trans) :
    AnswersFinished program worker later event ↔
      ((worker.turn program event).keeps = false →
        Answered worker later (target trans)) := by
  have leaves := turned.own trans own
  constructor
  · intro answers ends
    rw [if_neg (by simp [ends])] at leaves
    exact answers _ (.multiplyPhase own leaves)
  · intro answered aim finishes
    cases finishes with
    | onePhase starts registered =>
        simp only [turn, receiveTurn, starts, registered] at own
        cases own
    | @multiplyPhase _ _ other same ended =>
        rw [own] at same
        cases same
        apply answered
        rw [Bool.eq_false_iff]
        intro keeps
        rw [if_pos keeps] at leaves
        obtain ⟨self, registered⟩ := leaves
        rw [ended] at registered
        cases registered

theorem answersFinished_onePhase {now connId serviceId : Int}
    {package : Package Message}
    {handler : Int → Int → Package Message → Handler App Unit Message Unit}
    (starts : worker.waitingTransaction package = none)
    (registered : program.findTransaction package.command =
      some (.onePhase handler)) :
    AnswersFinished program worker later
        (.receive now connId serviceId package) ↔
      Answered worker later (connId, package.selfPackageId) := by
  constructor
  · exact fun answers => answers _ (.onePhase starts registered)
  · intro answered aim finishes
    cases finishes with
    | onePhase again same => exact answered
    | multiplyPhase own ended =>
        simp only [turn, receiveTurn, starts, registered] at own
        cases own

/-- A step without a turn finishes no request, but for a one-phase handler. -/
theorem answersFinished_of_idle
    (idle : (worker.turn program event).trans = none)
    (none : ∀ now connId serviceId package handler,
      event = .receive now connId serviceId package →
      worker.waitingTransaction package = none →
      program.findTransaction package.command ≠ some (.onePhase handler)) :
    AnswersFinished program worker later event := by
  intro aim finishes
  cases finishes with
  | onePhase starts registered =>
      exact absurd registered (none _ _ _ _ _ rfl starts)
  | multiplyPhase own ended =>
      rw [idle] at own
      cases own

/-- How a member function ended that was called to its end. -/
theorem called_cases {now connId : Int}
    {trans : MultiplyPhaseTransaction Self}
    {handler : Handler App Self Message Unit}
    {after : MultiplyPhaseTransaction Self × Worker App Self Message}
    (called : callTransaction program now connId worker trans handler =
      some after) :
    (∃ frame, handler (startFrame worker.app trans.self) = (.ok (), frame)) ∨
      ∃ thrown errorInfo frame,
        handler (startFrame worker.app trans.self) =
          (.error (.exception thrown), frame) ∧
        getErrorInfo thrown = .ok errorInfo := by
  have result := runMember_result program now worker trans handler
  unfold callTransaction at called
  split at called
  · rename_i later run
    rw [run] at result
    exact Or.inl ⟨_, Prod.ext result.symm rfl⟩
  · cases called
  · rename_i thrown failed left run
    rw [run] at result
    split at called
    · cases called
    · rename_i errorInfo info
      exact Or.inr ⟨thrown, errorInfo, _, Prod.ext result.symm rfl, info⟩

theorem called_onePhase_cases {connId : Int} {package : Package Message}
    {handler : Handler App Unit Message Unit}
    (called : callOnePhase program connId package worker handler =
      some later) :
    (∃ frame, handler (startFrame worker.app ()) = (.ok (), frame)) ∨
      ∃ thrown errorInfo frame,
        handler (startFrame worker.app ()) =
          (.error (.exception thrown), frame) ∧
        getErrorInfo thrown = .ok errorInfo := by
  unfold callOnePhase at called
  dsimp only at called
  split at called
  · rename_i ran
    exact Or.inl ⟨_, Prod.ext ran rfl⟩
  · cases called
  · rename_i thrown ran
    split at called
    · cases called
    · rename_i errorInfo info
      exact Or.inr ⟨thrown, errorInfo, _, Prod.ext ran rfl, info⟩

end Runs

end Worker

end Foundation
end Spaceless
