import Spaceless.Foundation.Answer
import Spaceless.ResourceServer.SessionTarget
import Spaceless.ResourceServer.Subtree

/-!
# Answers of the resource server

A request is answered once, when its transaction ends.  The exceptions end
without an answer: the successful removal of a path, and answers that
`send_protocol` drops because they are too large.
-/

namespace Spaceless
namespace ResourceServer

open Logic Foundation Protocol Frame SharingFileManager

/-- A response that holds numbers only. -/
def isNumeric : Message → Bool
  | .rspError _ => true
  | .rspPing _ _ => true
  | .rspLoginUser => true
  | .rspRemoveUser => true
  | .rspRegisterGroup _ => true
  | .rspJoinGroup => true
  | .rspAssignAsManager => true
  | .rspAssignAsMember => true
  | .rspKickOutUser => true
  | .rspPutFileSession _ => true
  | .rspPutFile _ => true
  | .rspGetFileSession _ => true
  | .rspCreatePath => true
  | _ => false

/-- The commands whose responses hold texts or lists. -/
def reports (command : Int) : Bool :=
  command = 1003 || command = 1009 || command = 1015 || command = 1025

/-! ## What the handlers send -/

section Handlers

variable (now connId : Int) (package : Package Message)

/-- A registered one-phase handler answers at its end. -/
theorem onePhase_callsLast {command : Int}
    {handler : Int → Int → Package Message →
      Handler Server Unit Message Unit}
    (registered : findTransaction command = some (.onePhase handler)) :
    CallsLast (fun sends _ => ∃ message,
        (reports command = false → isNumeric message = true) ∧
          sends = [.reply connId message package.triggerSource])
      (handler now connId package) := by
  have numeric {message : Message} {command : Int}
      (holds : isNumeric message = true) :
      ∃ other, (reports command = false → isNumeric other = true) ∧
        [Send.reply connId message package.triggerSource] =
          [.reply connId other package.triggerSource] :=
    ⟨message, fun _ => holds, rfl⟩
  have large {message : Message} {command : Int}
      (holds : reports command = true) :
      ∃ other, (reports command = false → isNumeric other = true) ∧
        [Send.reply connId message package.triggerSource] =
          [.reply connId other package.triggerSource] :=
    ⟨message, by simp [holds], rfl⟩
  unfold findTransaction at registered
  split at registered <;> cases registered
  · exact .bind (.check _) fun ⟨_, _⟩ => .bind (.onApp fun _ => rfl) fun _ =>
      .bind (.onApp fun _ => rfl) fun _ => .sendBackProtocol (numeric rfl)
  · exact .bind (.check _) fun ⟨_, _⟩ => .bind (.onApp fun _ => rfl) fun _ =>
      .sendBackProtocol (large rfl)
  · exact .bind (.check _) fun ⟨_, _⟩ => .bind (.onApp fun _ => rfl) fun _ =>
      .bind (.throwIf _ _) fun _ => .sendBackProtocol (numeric rfl)
  · exact .bind (.check _) fun _ => .bind (.onApp fun _ => rfl) fun _ =>
      .bind (.read _) fun _ => .bind (.throwIf _ _) fun _ =>
        .bind (.onApp fun _ => rfl) fun _ => .sendBackProtocol (numeric rfl)
  · exact .bind (.check _) fun ⟨_, _⟩ => .bind (.onApp fun _ => rfl) fun _ =>
      .bind (.check _) fun _ => .sendBackProtocol (large rfl)
  · exact .bind (.check _) fun _ => .bind (.onApp fun _ => rfl) fun _ =>
      .bind (.onApp fun _ => rfl) fun _ => .sendBackProtocol (numeric rfl)
  · exact .bind (.check _) fun ⟨_, _⟩ => .bind (.onApp fun _ => rfl) fun _ =>
      .bind (.check _) fun _ => .sendBackProtocol (large rfl)
  · exact .bind (.check _) fun _ => .bind (.onApp fun _ => rfl) fun _ =>
      .bind (.onApp fun _ => rfl) fun _ => .sendBackProtocol (numeric rfl)
  · exact .bind (.check _) fun ⟨_, _⟩ => .bind (.onApp fun _ => rfl) fun _ =>
      .bind (.onApp fun _ => rfl) fun _ => .bind (.onApp fun _ => rfl) fun _ =>
        .sendBackProtocol (numeric rfl)
  · exact .bind (.check _) fun ⟨_, _⟩ => .bind (.onApp fun _ => rfl) fun _ =>
      .bind (.onApp fun _ => rfl) fun _ => .bind (.onApp fun _ => rfl) fun _ =>
        .sendBackProtocol (numeric rfl)
  · exact .bind (.check _) fun ⟨_, _⟩ => .bind (.onApp fun _ => rfl) fun _ =>
      .bind (.onApp fun _ => rfl) fun _ => .bind (.throwIf _ _) fun _ =>
        .bind (.onApp fun _ => rfl) fun _ => .sendBackProtocol (numeric rfl)
  · exact .bind (.check _) fun ⟨_, _⟩ => .bind (.onApp fun _ => rfl) fun _ =>
      .bind (.onApp fun _ => rfl) fun _ => .bind (.onApp fun _ => rfl) fun _ =>
        .sendBackProtocol (numeric rfl)
  · refine .bind (.check _) fun ⟨_, _⟩ => .bind (.onApp fun _ => rfl) fun _ =>
      .bind (.onApp fun _ => rfl) fun _ => .bind (.throwIf _ _) fun _ =>
        .bind (.check _) fun _ => .bind (.check _) fun file => ?_
    split
    · exact .bind (.check _) fun _ => .sendBackProtocol (large rfl)
    · exact .throw _

/-! ### Transactions -/

variable (trans : MultiplyPhaseTransaction TransSelf)

/-- What `on_init` calls: it asks a service and waits, but the removal of a
path makes no calls. -/
def Asks (sends : List (Send Message)) (waits : List Wait) : Prop :=
  if trans.self = .removePath then sends = [] ∧ waits = []
  else (∀ send ∈ sends, send.connId = 0) ∧ waits ≠ []

theorem asks_service (other : trans.self ≠ .removePath)
    {serviceId cmd : Int} {message : Message} :
    CallsLast (Asks trans) (do
      serviceSendProtocol serviceId message trans.id
      serviceWaitNextPhase serviceId cmd :
        Handler Server TransSelf Message Unit) := by
  apply CallsLast.ask
  rw [Asks, if_neg other]
  refine ⟨?_, List.cons_ne_nil _ _⟩
  intro send sent
  rw [List.mem_singleton.mp sent]

theorem onInit_callsLast : CallsLast (Asks trans)
    (onInit trans connId package) := by
  unfold onInit
  split <;> rename_i self
  · exact .bind (.onApp fun _ => rfl) fun _ => .bind (.check _) fun _ =>
      .bind (.onApp fun _ => rfl) fun _ => .bind (.onApp fun _ => rfl) fun _ =>
        .bind (fun _ => rfl) fun _ => .bind (.onApp fun _ => rfl) fun _ =>
          asks_service trans (by simp [self])
  · exact .bind (.onApp fun _ => rfl) fun _ => .bind (.check _) fun _ =>
      .bind (.check _) fun _ => .bind (.throwIf _ _) fun _ =>
        .bind (.throwIf _ _) fun _ => .bind (.onApp fun _ => rfl) fun _ =>
          .bind (fun _ => rfl) fun _ => .bind (.onApp fun _ => rfl) fun _ =>
            .bind (.onApp fun _ => rfl) fun _ =>
              asks_service trans (by simp [self])
  · exact .bind (.onApp fun _ => rfl) fun _ => .bind (.check _) fun ⟨_, _⟩ =>
      .bind (.onApp fun _ => rfl) fun _ => .bind (.throwIf _ _) fun _ =>
        .bind (.onApp fun _ => rfl) fun _ => .bind (.onApp fun _ => rfl)
          fun _ => .bind (.onApp fun _ => rfl) fun _ =>
            .bind (fun _ => rfl) fun _ => .bind (.onApp fun _ => rfl) fun _ =>
              asks_service trans (by simp [self])
  · exact .bind (.onApp fun _ => rfl) fun _ => .bind (.check _) fun _ =>
      .bind (.check _) fun _ => .bind (.throwIf _ _) fun _ =>
        .bind (.onApp fun _ => rfl) fun _ => .bind (.onApp fun _ => rfl)
          fun _ => .bind (fun _ => rfl) fun _ => .bind (.onApp fun _ => rfl)
            fun _ => .bind (.onApp fun _ => rfl) fun _ =>
              asks_service trans (by simp [self])
  · refine .bind (.onApp fun _ => rfl) fun _ => .bind (.check _) fun ⟨_, _⟩ =>
      .bind (.onApp fun _ => rfl) fun _ => .of_preserves ?_ ?_
    · exact .onApp fun _ => rfl
    · rw [Asks, if_pos self]
      exact ⟨rfl, rfl⟩

/-- What `on_active` calls: it answers, with numbers only unless it passes a
fragment on, but that of the removal of a path makes no calls. -/
def Responds (sends : List (Send Message)) (waits : List Wait) : Prop :=
  waits = [] ∧
    if trans.self = .removePath then sends = []
    else ∃ message, ((∀ sessionId, trans.self ≠ .getFile sessionId) →
        isNumeric message = true) ∧
      sends = [.reply trans.firstConnId message trans.firstTriggerSource]

theorem onActive_callsLast : CallsLast (Responds trans)
    (onActive trans connId package) := by
  have numeric {message : Message} (holds : isNumeric message = true)
      (other : trans.self ≠ .removePath) : Responds trans
        [.reply trans.firstConnId message trans.firstTriggerSource] [] := by
    rw [Responds, if_neg other]
    exact ⟨rfl, message, fun _ => holds, rfl⟩
  unfold onActive
  split <;> rename_i self
  · refine .bind (.check _) fun response => ?_
    split
    · exact .bind (.onApp fun _ => rfl) fun _ =>
        .sendBackProtocol (numeric rfl (by simp [self]))
    · exact .bind (.onApp fun _ => rfl) fun _ =>
        .sendBackProtocol (numeric rfl (by simp [self]))
  · exact .bind (.onApp fun _ => rfl) fun _ => .bind (.check _) fun _ =>
      .sendBackProtocol (numeric rfl (by simp [self]))
  · refine .bind (.check _) fun response => ?_
    split
    · exact .bind (.onApp fun _ => rfl) fun _ =>
        .sendBackProtocol (numeric rfl (by simp [self]))
    · exact .bind (.onApp fun _ => rfl) fun _ =>
        .sendBackProtocol (numeric rfl (by simp [self]))
  · refine .bind (.onApp fun _ => rfl) fun _ => .bind (.check _) fun _ =>
      .sendBackProtocol ?_
    rw [Responds, if_neg (by simp [self])]
    exact ⟨rfl, _, fun other => absurd self (other _), rfl⟩
  · apply CallsLast.of_preserves (.pure ())
    rw [Responds, if_pos self]
    exact ⟨rfl, rfl⟩

/-- `on_error` returns, and answers. -/
theorem onError_answers (messageSize : Message → Nat)
    (errorInfo : Foundation.ErrorInfo)
    (frame : Frame Server TransSelf Message) :
    (onError messageSize trans connId errorInfo frame).1 = .ok () ∧
      ((onError messageSize trans connId errorInfo).after frame).sends =
        frame.sends ++ [.reply trans.firstConnId
          ((protocol messageSize).rspError errorInfo)
          trans.firstTriggerSource] ∧
      ((onError messageSize trans connId errorInfo).after frame).waits =
        frame.waits := by
  unfold onError
  cases trans.self <;> exact ⟨rfl, rfl, rfl⟩

end Handlers

/-- The server answers a request once. -/
theorem answersOnce (messageSize : Message → Nat) :
    Worker.AnswersOnce (program messageSize) where
  onePhase := by
    intro command handler registered now connId package
    apply (onePhase_callsLast now connId package registered).mono
    rintro sends waits ⟨message, -, sent⟩
    exact ⟨message, sent⟩
  onInit := by
    intro trans connId package
    apply (onInit_callsLast connId package trans).mono
    intro sends waits asks
    unfold Asks at asks
    split at asks
    · rw [asks.1]
      exact List.forall_mem_nil _
    · exact asks.1
  onActive := by
    intro trans connId package
    apply (onActive_callsLast connId package trans).mono
    rintro sends waits ⟨quiet, responds⟩
    split at responds
    · exact ⟨quiet, Or.inl responds⟩
    · obtain ⟨message, -, sent⟩ := responds
      exact ⟨quiet, Or.inr ⟨message, sent⟩⟩
  onError := by
    intro trans connId errorInfo frame
    exact onError_answers connId trans messageSize errorInfo frame

/-! ## One answer for each request -/

/-- However a run goes on after a request has started a transaction: the steps
of that transaction put at most one package on the queue for connections, it
answers the request on its connection, and once it is there no member of the
transaction runs any more.  On the whole queue there are at most as many
responses to a package id of a connection as requests came with it; the
connection id 0 names no connection. -/
theorem request_answered_once (messageSize : Message → Nat)
    (server : Server) {before rest : List (Worker.Event Message ServerCall)}
    {now connId serviceId : Int} {package : Package Message}
    {worker last : ServerWorker}
    (reaches : (Worker.machine (program messageSize) server).Reaches before
      worker)
    (starts : Worker.Starts (program messageSize) package worker)
    (run : (Worker.machine (program messageSize) server).run worker
      (.receive now connId serviceId package :: rest) = some last) :
    let responses := (Worker.machine (program messageSize) server).outputs
      (Worker.answers (program messageSize) worker.nextTransId) worker
      (.receive now connId serviceId package :: rest)
    responses.length ≤ 1 ∧
      (∀ out ∈ responses, out.target = (connId, package.selfPackageId)) ∧
      (responses ≠ [] → ∀ event,
        (last.turn (program messageSize) event).transId ≠
          some worker.nextTransId) ∧
      (connId ≠ 0 → last.responses (connId, package.selfPackageId) ≤
        (before ++ .receive now connId serviceId package :: rest).countP
          (Worker.isRequest (program messageSize)
            (connId, package.selfPackageId))) := by
  have once := answersOnce messageSize
  obtain ⟨short, aimed, silent⟩ := once.outputs_once reaches starts run
  have whole : (Worker.machine (program messageSize) server).Reaches
      (before ++ .receive now connId serviceId package :: rest) last :=
    Machine.reaches_append_iff.mpr ⟨worker, reaches, run⟩
  exact ⟨short, aimed, silent, fun client => once.responses_le client whole⟩

/-- The steps of `main`, and the login of the root user on connection 5. -/
def loginSteps : List (Worker.Event Message ServerCall) :=
  [.internal (.registerRootUser ['r'] ['p']),
    .internal (.registerNode ['n'] 1 2),
    .internal (.registerRootGroup 1 ['g']),
    .receive 0 5 0
      { command := 1005, selfPackageId := 1, triggerPackageId := 0
        content := some (.reqLoginUser 1 ['p']) }]

/-- A request for a put session, on the package with the given id. -/
def sessionRequest (packageId : Int) : Package Message where
  command := 1027
  selfPackageId := packageId
  triggerPackageId := 0
  content := some (.reqPutFileSession
    { groupId := 1, filePath := ['f'], maxFragment := 1 })

/-- A session request on package 2 that times out. -/
def timeoutSteps : List (Worker.Event Message ServerCall) :=
  [.receive 0 5 0 (sessionRequest 2), .expire 2000000000 1]

def loggedWorker : ServerWorker :=
  ((Worker.machine (program fun _ => 0) Server.init).run
    (Worker.init Server.init) loginSteps).get (by decide +kernel)

def lapsedWorker : ServerWorker :=
  ((Worker.machine (program fun _ => 0) Server.init).run loggedWorker
    timeoutSteps).get (by decide +kernel)

theorem request_answered_once_timeout :
    lapsedWorker.responses (5, 2) = 1 ∧
      lapsedWorker.responses (5, 2) ≤
        (loginSteps ++ timeoutSteps).countP
          (Worker.isRequest (program fun _ => 0) (5, 2)) := by
  have reaches : (Worker.machine (program fun _ => 0) Server.init).Reaches
      loginSteps loggedWorker := (Option.some_get _).symm
  have starts : Worker.Starts (program fun _ => 0) (sessionRequest 2)
      loggedWorker := ⟨rfl, .putFileSession 0, rfl⟩
  have run : (Worker.machine (program fun _ => 0) Server.init).run
      loggedWorker timeoutSteps = some lapsedWorker :=
    (Option.some_get _).symm
  have answered := request_answered_once (fun _ => 0) Server.init reaches
    starts run
  exact ⟨by decide +kernel, answered.2.2.2 (by decide)⟩

end ResourceServer
end Spaceless
