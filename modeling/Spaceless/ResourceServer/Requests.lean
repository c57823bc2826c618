import Spaceless.Foundation.Origin
import Spaceless.ResourceServer.Answer
import Spaceless.ResourceServer.Serialization

/-!
# What transactions ask nodes and answer clients

Each class of transaction asks a storage node for one kind of thing in
`on_init`, and answers its client in `on_active`.  So the command of a message
that a turn sends tells which member function of which class has sent it.
-/

namespace Spaceless
namespace ResourceServer

open Logic Foundation Protocol Frame FileSessionManager

/-- The command of what a transaction asks its node for. -/
def TransSelf.nodeCommand : TransSelf → Int
  | .putFileSession _ => 1029
  | .putFile _ => 1031
  | .getFileSession _ => 1035
  | .getFile _ => 1037
  | .removePath => 0

/-! ## Member functions -/

section Members

variable (now connId : Int) (package : Package Message)

/-- A one-phase handler answers with the command after that of its request. -/
theorem onePhase_command {command : Int}
    {handler : Int → Int → Package Message →
      Handler Server Unit Message Unit}
    (registered : findTransaction command = some (.onePhase handler)) :
    Emits (fun send => send.message.command = command + 1)
      (handler now connId package) := by
  unfold findTransaction at registered
  split at registered <;> cases registered
  · exact .bind (.check _) fun ⟨_, _⟩ => .bind (.onApp _) fun _ =>
      .bind (.onApp _) fun _ => .sendBackProtocol rfl
  · exact .bind (.check _) fun ⟨_, _⟩ => .bind (.onApp _) fun _ =>
      .sendBackProtocol rfl
  · exact .bind (.check _) fun ⟨_, _⟩ => .bind (.onApp _) fun _ =>
      .bind (.throwIf _ _) fun _ => .sendBackProtocol rfl
  · exact .bind (.check _) fun _ => .bind (.onApp _) fun _ =>
      .bind (.read _) fun _ => .bind (.throwIf _ _) fun _ =>
        .bind (.onApp _) fun _ => .sendBackProtocol rfl
  · exact .bind (.check _) fun ⟨_, _⟩ => .bind (.onApp _) fun _ =>
      .bind (.check _) fun _ => .sendBackProtocol rfl
  · exact .bind (.check _) fun _ => .bind (.onApp _) fun _ =>
      .bind (.onApp _) fun _ => .sendBackProtocol rfl
  · exact .bind (.check _) fun ⟨_, _⟩ => .bind (.onApp _) fun _ =>
      .bind (.check _) fun _ => .sendBackProtocol rfl
  · exact .bind (.check _) fun _ => .bind (.onApp _) fun _ =>
      .bind (.onApp _) fun _ => .sendBackProtocol rfl
  · exact .bind (.check _) fun ⟨_, _⟩ => .bind (.onApp _) fun _ =>
      .bind (.onApp _) fun _ => .bind (.onApp _) fun _ =>
        .sendBackProtocol rfl
  · exact .bind (.check _) fun ⟨_, _⟩ => .bind (.onApp _) fun _ =>
      .bind (.onApp _) fun _ => .bind (.onApp _) fun _ =>
        .sendBackProtocol rfl
  · exact .bind (.check _) fun ⟨_, _⟩ => .bind (.onApp _) fun _ =>
      .bind (.onApp _) fun _ => .bind (.throwIf _ _) fun _ =>
        .bind (.onApp _) fun _ => .sendBackProtocol rfl
  · exact .bind (.check _) fun ⟨_, _⟩ => .bind (.onApp _) fun _ =>
      .bind (.onApp _) fun _ => .bind (.onApp _) fun _ =>
        .sendBackProtocol rfl
  · refine .bind (.check _) fun ⟨_, _⟩ => .bind (.onApp _) fun _ =>
      .bind (.onApp _) fun _ => .bind (.throwIf _ _) fun _ =>
        .bind (.check _) fun _ => .bind (.check _) fun file => ?_
    split
    · exact .bind (.check _) fun _ => .sendBackProtocol rfl
    · exact .throw _

variable (trans : MultiplyPhaseTransaction TransSelf)

/-- `on_init` sends what the class of its transaction asks for. -/
theorem onInit_command :
    Emits (fun send => send.message.command = trans.self.nodeCommand)
      (onInit trans connId package) := by
  unfold onInit
  split <;> rename_i self <;> rw [self]
  · exact .bind (.onApp _) fun _ => .bind (.check _) fun _ =>
      .bind (.onApp _) fun _ => .bind (.onApp _) fun _ =>
        .bind (.setSelf _) fun _ => .bind (.onApp _) fun _ =>
          .bind (.serviceSendProtocol rfl) fun _ =>
            .serviceWaitNextPhase _ _
  · exact .bind (.onApp _) fun _ => .bind (.check _) fun _ =>
      .bind (.check _) fun _ => .bind (.throwIf _ _) fun _ =>
        .bind (.throwIf _ _) fun _ => .bind (.onApp _) fun _ =>
          .bind (.setSelf _) fun _ => .bind (.onApp _) fun _ =>
            .bind (.onApp _) fun _ => .bind (.serviceSendProtocol rfl)
              fun _ => .serviceWaitNextPhase _ _
  · exact .bind (.onApp _) fun _ => .bind (.check _) fun ⟨_, _⟩ =>
      .bind (.onApp _) fun _ => .bind (.throwIf _ _) fun _ =>
        .bind (.onApp _) fun _ => .bind (.onApp _) fun _ =>
          .bind (.onApp _) fun _ => .bind (.setSelf _) fun _ =>
            .bind (.onApp _) fun _ => .bind (.serviceSendProtocol rfl)
              fun _ => .serviceWaitNextPhase _ _
  · exact .bind (.onApp _) fun _ => .bind (.check _) fun _ =>
      .bind (.check _) fun _ => .bind (.throwIf _ _) fun _ =>
        .bind (.onApp _) fun _ => .bind (.onApp _) fun _ =>
          .bind (.setSelf _) fun _ => .bind (.onApp _) fun _ =>
            .bind (.onApp _) fun _ => .bind (.serviceSendProtocol rfl)
              fun _ => .serviceWaitNextPhase _ _
  · exact .bind (.onApp _) fun _ => .bind (.check _) fun ⟨_, _⟩ =>
      .bind (.onApp _) fun _ => .onApp _

/-- `on_active` answers the command that the class is registered with. -/
theorem onActive_command :
    Emits (fun send => send.message.command = trans.self.command + 1)
      (onActive trans connId package) := by
  unfold onActive
  split <;> rename_i self <;> rw [self]
  · refine .bind (.check _) fun response => ?_
    split
    · exact .bind (.onApp _) fun _ => .sendBackProtocol rfl
    · exact .bind (.onApp _) fun _ => .sendBackProtocol rfl
  · exact .bind (.onApp _) fun _ => .bind (.check _) fun _ =>
      .sendBackProtocol rfl
  · refine .bind (.check _) fun response => ?_
    split
    · exact .bind (.onApp _) fun _ => .sendBackProtocol rfl
    · exact .bind (.onApp _) fun _ => .sendBackProtocol rfl
  · exact .bind (.onApp _) fun _ => .bind (.check _) fun _ =>
      .sendBackProtocol rfl
  · exact .pure ()

/-- A transaction keeps its class. -/
theorem onInit_keepsClass :
    KeepsSelf (fun self => self.command = trans.self.command)
      (onInit trans connId package) := by
  have set {self : TransSelf} (same : self.command = trans.self.command) :
      KeepsSelf (fun self => self.command = trans.self.command)
        (setSelf self : Handler Server TransSelf Message Unit) :=
    .setSelf same
  unfold onInit
  split <;> rename_i self <;> rw [self] at set ⊢
  · exact .bind (.onApp _) fun _ => .bind (.check _) fun _ =>
      .bind (.onApp _) fun _ => .bind (.onApp _) fun _ =>
        .bind (set rfl) fun _ => .bind (.onApp _) fun _ =>
          .bind (.serviceSendProtocol _ _ _) fun _ =>
            .serviceWaitNextPhase _ _
  · exact .bind (.onApp _) fun _ => .bind (.check _) fun _ =>
      .bind (.check _) fun _ => .bind (.throwIf _ _) fun _ =>
        .bind (.throwIf _ _) fun _ => .bind (.onApp _) fun _ =>
          .bind (set rfl) fun _ => .bind (.onApp _) fun _ =>
            .bind (.onApp _) fun _ => .bind (.serviceSendProtocol _ _ _)
              fun _ => .serviceWaitNextPhase _ _
  · exact .bind (.onApp _) fun _ => .bind (.check _) fun ⟨_, _⟩ =>
      .bind (.onApp _) fun _ => .bind (.throwIf _ _) fun _ =>
        .bind (.onApp _) fun _ => .bind (.onApp _) fun _ =>
          .bind (.onApp _) fun _ => .bind (set rfl) fun _ =>
            .bind (.onApp _) fun _ => .bind (.serviceSendProtocol _ _ _)
              fun _ => .serviceWaitNextPhase _ _
  · exact .bind (.onApp _) fun _ => .bind (.check _) fun _ =>
      .bind (.check _) fun _ => .bind (.throwIf _ _) fun _ =>
        .bind (.onApp _) fun _ => .bind (.onApp _) fun _ =>
          .bind (set rfl) fun _ => .bind (.onApp _) fun _ =>
            .bind (.onApp _) fun _ => .bind (.serviceSendProtocol _ _ _)
              fun _ => .serviceWaitNextPhase _ _
  · exact .bind (.onApp _) fun _ => .bind (.check _) fun ⟨_, _⟩ =>
      .bind (.onApp _) fun _ => .onApp _

end Members

/-! ## The sends of a turn -/

variable {messageSize : Message → Nat} {worker later : ServerWorker}
  {event : Worker.Event Message ServerCall} {send : Send Message}
  {now connId serviceId : Int} {package : Package Message}

/-- Which function has sent a message of a turn. -/
inductive SentBy (worker : ServerWorker) :
    Worker.Event Message ServerCall → Send Message → Prop
  | onError {event send errorInfo}
      (message : send.message = .rspError errorInfo) :
      SentBy worker event send
  | onePhase {event send command handler}
      (registered : findTransaction command = some (.onePhase handler))
      (answers : send.message.command = command + 1) :
      SentBy worker event send
  | onInit {send now connId serviceId package factory}
      (starts : worker.waitingTransaction package = none)
      (registered : findTransaction package.command =
        some (.multiplyPhase factory))
      (asks : send.message.command = factory.nodeCommand)
      (own : send ∈ ((onInit (.init worker.nextTransId factory connId
        package.triggerSource) connId package).after
          (Worker.startFrame worker.app factory)).sends) :
      SentBy worker (.receive now connId serviceId package) send
  | onActive {send now connId serviceId package waiting}
      (waits : worker.waitingTransaction package = some waiting)
      (fits : waiting.fits connId serviceId package.command = true)
      (answers : send.message.command = waiting.self.command + 1)
      (own : send ∈ ((onActive waiting.clearWaitingState connId package).after
        (Worker.startFrame worker.app waiting.self)).sends) :
      SentBy worker (.receive now connId serviceId package) send

theorem sentBy_of_onError (connId : Int)
    {failed : MultiplyPhaseTransaction TransSelf}
    {errorInfo : Foundation.ErrorInfo} {app : Server}
    (sent : send ∈ ((onError messageSize failed connId errorInfo).after
      (Worker.startFrame app failed.self)).sends) :
    SentBy worker event send := by
  rw [(onError_answers connId failed messageSize errorInfo _).2.1] at sent
  rw [List.mem_singleton.mp sent]
  exact .onError rfl

theorem sentBy_of_turn
    (sent : send ∈ (worker.turn (program messageSize) event).sends) :
    SentBy worker event send := by
  have kinds := Worker.turns (program messageSize) worker event
  generalize worker.turn (program messageSize) event = turn at sent kinds
  cases kinds with
  | idle => cases sent
  | @onePhase now connId serviceId package handler starts registered =>
      rcases Worker.mem_onePhaseSends sent with own | ⟨errorInfo, message⟩
      · exact .onePhase registered (onePhase_command now connId package
          registered (Worker.startFrame worker.app ())
          (List.forall_mem_nil _) send own)
      · exact .onError message
  | @starts now connId serviceId package factory starts registered =>
      cases ran : onInit (.init worker.nextTransId factory connId
          package.triggerSource) connId package
            (Worker.startFrame worker.app factory) with
      | mk result frame =>
          rcases Worker.mem_memberCalls ran sent with own | ⟨_, _, _, last⟩
          · have left : (onInit (.init worker.nextTransId factory connId
                package.triggerSource) connId package).after
                  (Worker.startFrame worker.app factory) = frame :=
              congrArg Prod.snd ran
            rw [← left] at own
            exact .onInit starts registered (onInit_command connId package _
              (Worker.startFrame worker.app factory)
              (List.forall_mem_nil _) send own) own
          · exact sentBy_of_onError connId last
  | @active now connId serviceId package waiting answers fits =>
      cases ran : onActive waiting.clearWaitingState connId package
          (Worker.startFrame worker.app waiting.clearWaitingState.self) with
      | mk result frame =>
          rcases Worker.mem_memberCalls ran sent with own | ⟨_, _, _, last⟩
          · have left : (onActive waiting.clearWaitingState connId
                package).after (Worker.startFrame worker.app
                  waiting.clearWaitingState.self) = frame :=
              congrArg Prod.snd ran
            rw [← left] at own
            exact .onActive answers fits (onActive_command connId package
              waiting.clearWaitingState
              (Worker.startFrame worker.app waiting.self)
              (List.forall_mem_nil _) send own) own
          · exact sentBy_of_onError connId last
  | @timeout now timerId timer waiting due registered =>
      exact sentBy_of_onError waiting.waitConnId sent

/-- What transactions of a class ask their nodes for is sent when one
starts. -/
theorem started_of_request
    (sent : send ∈ (worker.turn (program messageSize) event).sends)
    {self : TransSelf} (asks : send.message.command = self.nodeCommand)
    (waits : self ≠ .removePath) :
    ∃ now connId serviceId package factory,
      event = .receive now connId serviceId package ∧
      worker.waitingTransaction package = none ∧
      findTransaction package.command = some (.multiplyPhase factory) ∧
      factory.command = self.command ∧
      send ∈ ((onInit (.init worker.nextTransId factory connId
        package.triggerSource) connId package).after
          (Worker.startFrame worker.app factory)).sends := by
  have known : self.nodeCommand = 1029 ∨ self.nodeCommand = 1031 ∨
      self.nodeCommand = 1035 ∨ self.nodeCommand = 1037 := by
    cases self <;> simp_all [TransSelf.nodeCommand]
  cases sentBy_of_turn sent with
  | onError message =>
      rw [message] at asks
      change 1000 = _ at asks
      omega
  | @onePhase _ _ command _ registered answers =>
      obtain rfl | rfl | rfl | rfl : command = 1028 ∨ command = 1030 ∨
          command = 1034 ∨ command = 1036 := by omega
      all_goals cases registered
  | @onInit _ now connId serviceId package factory starts registered own
      sends =>
      refine ⟨now, connId, serviceId, package, factory, rfl, starts,
        registered, ?_, sends⟩
      rw [asks] at own
      cases factory <;> cases self <;> first | rfl | cases own
  | @onActive _ now connId serviceId package waiting waits fits answers own =>
      rw [asks] at answers
      cases taken : waiting.self <;>
        simp only [taken, TransSelf.command] at answers <;> omega

/-- What transactions of a class answer is sent when their node has
answered. -/
theorem active_of_answer
    (sent : send ∈ (worker.turn (program messageSize) event).sends)
    {self : TransSelf} (answers : send.message.command = self.command + 1)
    (waits : self ≠ .removePath) :
    ∃ now connId serviceId package waiting,
      event = .receive now connId serviceId package ∧
      worker.waitingTransaction package = some waiting ∧
      waiting.fits connId serviceId package.command = true ∧
      waiting.self.command = self.command ∧
      send ∈ ((onActive waiting.clearWaitingState connId package).after
        (Worker.startFrame worker.app waiting.self)).sends := by
  have known : self.command = 1027 ∨ self.command = 1031 ∨
      self.command = 1033 ∨ self.command = 1037 := by
    cases self <;> simp_all [TransSelf.command]
  cases sentBy_of_turn sent with
  | onError message =>
      rw [message] at answers
      change 1000 = _ at answers
      omega
  | @onePhase _ _ command _ registered other =>
      obtain rfl | rfl | rfl | rfl : command = 1027 ∨ command = 1031 ∨
          command = 1033 ∨ command = 1037 := by omega
      all_goals cases registered
  | @onInit _ now connId serviceId package factory starts registered asks
      own =>
      rw [answers] at asks
      cases factory <;> simp only [TransSelf.nodeCommand] at asks <;> omega
  | @onActive _ now connId serviceId package waiting waits fits other own =>
      exact ⟨now, connId, serviceId, package, waiting, rfl, waits, fits,
        by omega, own⟩

/-! ## Registered transactions -/

/-- A transaction that waits starts so that it waits or ends. -/
theorem started_of_factory {factory : TransSelf}
    (starts : worker.waitingTransaction package = none)
    (registered : findTransaction package.command =
      some (.multiplyPhase factory)) (other : factory ≠ .removePath)
    (received : Worker.receive (program messageSize) now connId serviceId
      package worker = some later) :
    Worker.Started (program messageSize) connId package worker factory
      later := by
  refine Worker.started_of_receive starts registered ?_ ?_ received
  · rintro trans rfl
    refine (onInit_callsLast connId package trans _).mono ?_ ?_
    · rintro _ frame ⟨sends, waits, asks, -, waited⟩
      rw [Asks, if_neg other] at asks
      rw [waited]
      exact asks.2
    · exact fun _ frame calls => calls.2
  · intro failed errorInfo frame
    exact onError_waits failed connId errorInfo frame

/-- The removal of a path ends in its first phase. -/
theorem ended_removePath
    (starts : worker.waitingTransaction package = none)
    (registered : findTransaction package.command =
      some (.multiplyPhase .removePath))
    (received : Worker.receive (program messageSize) now connId serviceId
      package worker = some later) :
    later.transList[worker.nextTransId]? = none := by
  have own := (Worker.receive_turned received).own
  rw [Worker.turn_of_starts starts registered] at own
  have ended := own _ rfl
  have quiet : (Worker.memberCalls (program messageSize) connId worker.app
      (.init worker.nextTransId .removePath connId package.triggerSource)
      (onInit (.init worker.nextTransId .removePath connId
        package.triggerSource) connId package)).2 = [] := by
    rcases (answersOnce messageSize).memberCalls_cases
      (onInit_callsLast connId package (.init worker.nextTransId .removePath
        connId package.triggerSource)) connId worker.app
        (.init worker.nextTransId .removePath connId package.triggerSource)
      with asks | failed
    · exact asks.2
    · exact failed.1
  rw [Worker.memberTurn, program_onInit, quiet] at ended
  exact ended

/-- A transaction after a package was registered before, or the package has
started it as one of its class. -/
theorem registered_of_receive
    (received : Worker.receive (program messageSize) now connId serviceId
      package worker = some later) {transId : Int}
    {trans : MultiplyPhaseTransaction TransSelf}
    (found : later.transList[transId]? = some trans) :
    worker.transList[transId]? = some trans ∨
      transId = worker.nextTransId ∧
      worker.waitingTransaction package = none ∧
      ∃ factory, findTransaction package.command =
          some (.multiplyPhase factory) ∧
        factory.command = trans.self.command := by
  refine ((waitsOnce messageSize).registered_of_receive received
    found).imp_right ?_
  rintro ⟨rfl, starts, factory, registered⟩
  refine ⟨rfl, starts, factory, registered, ?_⟩
  by_cases removes : factory = .removePath
  · subst removes
    rw [ended_removePath starts registered received] at found
    cases found
  · cases started_of_factory starts registered removes received with
    | @waits frame waiting ran app entry transId self =>
        cases entry.symm.trans found
        have left : (onInit (.init worker.nextTransId factory connId
            package.triggerSource) connId package).after
              (Worker.startFrame worker.app factory) = frame :=
          congrArg Prod.snd ran
        have kept := onInit_keepsClass connId package
          (.init worker.nextTransId factory connId package.triggerSource)
          (Worker.startFrame worker.app factory) rfl
        rw [left] at kept
        rw [self]
        exact kept.symm
    | ends ran self app entry =>
        rw [entry] at found
        cases found

/-- Bindings lead to transactions that were started. -/
theorem bindings_of_reachable
    (reachable : (serverMachine messageSize).Reachable worker) :
    worker.Bindings := by
  obtain ⟨events, reaches⟩ := reachable
  refine Machine.Reaches.induction
    (motive := fun _ worker => worker.Bindings) ?_ ?_ reaches
  · intro packageId transId found
    simp [serverMachine, Worker.init] at found
  · intro events worker event next _ bindings stepped
    cases event with
    | restart rest =>
        cases stepped
        intro packageId transId found
        simp [Worker.init] at found
    | worker event =>
        have ran : Worker.step (program messageSize) worker event =
            some next := stepped
        refine bindings.pushes (step_mayPush ran)
          (Worker.step_nextTransId_le ran) ?_
        rintro send (reply | ⟨_, _, _, _, rfl, starts, may⟩) valid
        · exact absurd reply.unbound valid
        · rw [(may.bound valid).1]
          rcases Worker.receive_nextTransId ran with
            ⟨-, counted⟩ | ⟨other, -⟩
          · omega
          · exact absurd starts other

/-! ## Fragments -/

/-- A fragment that is sent to a node is that of a client who advances its put
session. -/
theorem forwarded_of_turn
    (sent : send ∈ (worker.turn (program messageSize) event).sends)
    {forwarded : ReqPutFile} (message : send.message = .reqPutFile forwarded) :
    ∃ now connId serviceId package request user session group node,
      event = .receive now connId serviceId package ∧
      Advances worker.app connId package request user session ∧
      worker.app.groups.findGroup session.groupId = some group ∧
      worker.app.nodes.findNode group.nodeId = some node ∧
      send.serviceId = node.serviceId ∧
      forwarded = { request with sessionId := session.nodeSessionId } := by
  have asks : send.message.command = (TransSelf.putFile 0).nodeCommand := by
    rw [message]
    rfl
  obtain ⟨now, connId, serviceId, package, factory, rfl, starts, registered,
    command, own⟩ := started_of_request sent asks (by simp)
  have asked := command_of_findTransaction registered
  rw [asked, command] at registered
  cases registered
  have runs := PutFileTrans.onInit_run (.init worker.nextTransId (.putFile 0)
    connId package.triggerSource) connId package worker.app (.putFile 0)
  change send ∈ ((PutFileTrans.onInit _ connId package).after _).sends at own
  unfold Action.after at own
  cases ran : PutFileTrans.onInit (.init worker.nextTransId (.putFile 0)
      connId package.triggerSource) connId package
        (Worker.startFrame worker.app (.putFile 0)) with
  | mk result frame =>
      rw [ran] at own
      cases result with
      | error fault => cases runs.of_error ran <;> cases own
      | ok value =>
          cases runs.of_ok ran with
          | @forwarded request user session group node advances listed
              known =>
              rw [List.mem_singleton.mp own] at message ⊢
              cases message
              exact ⟨now, connId, serviceId, package, request, user, session,
                group, node, rfl, advances, listed, known, rfl, rfl⟩

/-- No put session counts below zero. -/
theorem nextFragment_nonneg_of_reachable {messageSize : Message → Nat}
    {worker : ServerWorker}
    (reachable : (serverMachine messageSize).Reachable worker)
    {sessionId : Int} {session : PutFileSession}
    (found : worker.app.sessions.findPutSession sessionId = some session) :
    0 ≤ session.nextFragment := by
  obtain ⟨events, reaches⟩ := reachable
  revert sessionId session
  refine Machine.Reaches.induction
    (motive := fun _ worker => ∀ {sessionId : Int} {session : PutFileSession},
      worker.app.sessions.findPutSession sessionId = some session →
      0 ≤ session.nextFragment) ?_ ?_ reaches
  · intro sessionId session found
    simp [serverMachine, Worker.init, Server.init, FileSessionManager.init,
      findPutSession] at found
  · intro events worker event next reached nonneg stepped sessionId session
      found
    cases event with
    | restart rest =>
        cases stepped
        change (worker.app.restart rest).sessions.findPutSession sessionId =
          some session at found
        rw [restart_sessions] at found
        simp [FileSessionManager.init, findPutSession] at found
    | worker event =>
        obtain ⟨owner, forest⟩ :=
          (Sound.of_reachable ⟨events, reached⟩).running
        have from_ := SessionsFrom.of_changed forest.owned
          (keyed_of_reachable ⟨events, reached⟩) (step_changed stepped)
        generalize eventSource worker event = source at from_
        rcases from_.origin sessionId _ (findPutSession_eq_some.mp found)
          with ⟨old, older, continues⟩ | ⟨-, opens⟩
        · cases continues with
          | same => exact nonneg (findPutSession_eq_some.mpr older)
          | fragment request command content login own known next =>
              have before := nonneg (findPutSession_eq_some.mpr older)
              change 0 ≤ _ + 1
              omega
          | putNode nodeSessionId =>
              have before := nonneg (findPutSession_eq_some.mpr older)
              exact before
        · cases opens with
          | put request command content manages uploads => exact Int.le_refl 0

end ResourceServer
end Spaceless
