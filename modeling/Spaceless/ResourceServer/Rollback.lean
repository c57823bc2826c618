import Spaceless.Foundation.Outcome
import Spaceless.ResourceServer.SessionTable

/-!
# Session requests that end in an error

`PutFileSessionTrans::on_error` removes the session whose id the transaction
has taken down, and nothing else.  A request that gets past its checks
therefore never leaves the server as it was: an upload keeps its entries in
the file table, and a session that was only used again is removed.
-/

namespace Spaceless
namespace ResourceServer

open Logic Foundation Protocol Frame FileSessionManager

/-- The request is one of a manager of its group, and gets past its
checks. -/
def Passes (server : Server) (connId : Int) (package : Package Message) :
    Prop :=
  ∃ request user group,
    package.content = some (.reqPutFileSession request) ∧
    Manages server connId request.groupId user group ∧
    Proceeds server user group request

/-- What the initialisation of a session request leaves behind: the managers,
and the session that the transaction has taken down. -/
inductive SessionRequestRun (before : Server) (connId : Int)
    (package : Package Message) : Server → TransSelf → Prop
  | refused {later} (stopped : ¬Passes before connId package)
      (files : later.files = before.files)
      (same : SameSessions before.sessions later.sessions) :
      SessionRequestRun before connId package later (.putFileSession 0)
  | reused {later} {session : PutFileSession}
      (passes : Passes before connId package)
      (files : later.files = before.files)
      (same : SameSessions before.sessions later.sessions)
      (live : before.sessions.sessionList[session.sessionId]? =
        some (.put session)) :
      SessionRequestRun before connId package later
        (.putFileSession session.sessionId)
  | stored {later sessionId} (passes : Passes before connId package)
      (entry : (later.files.findFile before.files.nextId).isSome = true) :
      SessionRequestRun before connId package later
        (.putFileSession sessionId)

theorem parse_reqPutFileSession {package : Package Message}
    {request : ReqPutFileSession} :
    package.parseToProtocol asReqPutFileSession = .ok request ↔
      package.content = some (.reqPutFileSession request) := by
  constructor
  · intro parsed
    obtain ⟨message, content, selected⟩ := content_of_parse parsed
    rw [content]
    unfold asReqPutFileSession at selected
    split at selected <;> simp_all
  · intro content
    simp [Package.parseToProtocol, content, asReqPutFileSession]

section OnInit

variable {before : Server} {owner : Int → Int} {connId : Int}
  {package : Package Message}

/-- `PutFileSessionTrans::on_init` waits exactly when it returns. -/
theorem PutFileSessionTrans.onInit_run (owned : before.files.Owned owner)
    (keyed : before.sessions.Keyed)
    (trans : MultiplyPhaseTransaction TransSelf) :
    Action.Ensures (PutFileSessionTrans.onInit trans connId package)
      (Worker.startFrame before (.putFileSession 0))
      (fun _ frame =>
        SessionRequestRun before connId package frame.app frame.self ∧
          frame.waits ≠ [])
      (fun _ frame =>
        SessionRequestRun before connId package frame.app frame.self ∧
          frame.waits = []) := by
  have refused (stopped : ¬Passes before connId package) :
      SessionRequestRun before connId package before (.putFileSession 0) :=
    .refused stopped rfl ⟨rfl, rfl⟩
  simp only [PutFileSessionTrans.onInit, Action.ensures_bind,
    ensures_onApp, Server.getLoginUser, parse, managedGroup, Server.getNode,
    Action.ensures_check, ensures_setSelf, ensures_serviceSendProtocol,
    ensures_serviceWaitNextPhase, Worker.startFrame]
  refine ⟨fun user login => ⟨fun request parsed => ⟨fun group managed => ?_,
    fun fault failed => ⟨refused ?_, trivial⟩⟩,
    fun fault failed => ⟨refused ?_, trivial⟩⟩,
    fun fault failed => ⟨refused ?_, trivial⟩⟩
  · obtain ⟨found, manager⟩ := found_of_managed managed
    have content := parse_reqPutFileSession.mp parsed
    have manages : Manages before connId request.groupId user group :=
      ⟨⟨findLoginUser_of_getLoginUser login, found⟩, manager⟩
    have passes (proceeds : Proceeds before user group request) :
        Passes before connId package :=
      ⟨request, user, group, content, manages, proceeds⟩
    have only (stopped : ¬Proceeds before user group request) :
        ¬Passes before connId package := by
      rintro ⟨other, otherUser, otherGroup, sameContent, same, proceeds⟩
      rw [content] at sameContent
      cases sameContent
      have sameLogin := same.login
      have sameFound := same.found
      rw [manages.login] at sameLogin
      rw [manages.found] at sameFound
      cases sameLogin
      cases sameFound
      exact stopped proceeds
    refine (putSession_run user group request owned keyed).mono ?_ ?_
    · intro session later outcome
      cases outcome with
      | reused proceeds live same =>
          exact ⟨fun node _ => ⟨.reused (passes proceeds) rfl same live,
            by simp⟩, fun _ _ => ⟨.reused (passes proceeds) rfl same live,
              trivial⟩⟩
      | registered uploads stored sessionList nextId =>
          exact ⟨fun node _ => ⟨.stored (passes (Or.inr uploads)) stored,
            by simp⟩, fun _ _ => ⟨.stored (passes (Or.inr uploads)) stored,
              trivial⟩⟩
    · intro fault later outcome
      cases outcome with
      | refused stopped same =>
          exact ⟨.refused (only stopped) rfl same, trivial⟩
      | unlisted uploads stored same =>
          exact ⟨.stored (passes (Or.inr uploads)) stored, trivial⟩
  · rintro ⟨other, otherUser, otherGroup, content, manages, proceeds⟩
    have parsedOther := parse_reqPutFileSession.mpr content
    rw [parsed] at parsedOther
    cases parsedOther
    rw [getLoginUser_of_findLoginUser manages.login] at login
    cases login
    simp [getGroup_of_findGroup manages.found, manages.manager] at failed
  · rintro ⟨other, otherUser, otherGroup, content, manages, proceeds⟩
    rw [parse_reqPutFileSession.mpr content] at failed
    cases failed
  · rintro ⟨other, otherUser, otherGroup, content, manages, proceeds⟩
    rw [getLoginUser_of_findLoginUser manages.login] at failed
    cases failed

end OnInit

/-! ## What the error handler undoes -/

/-- The entries of the file tree and the live sessions are the same. -/
def Unchanged (before after : Server) : Prop :=
  after.files.fileList = before.files.fileList ∧
    after.sessions.sessionList = before.sessions.sessionList

/-- Removing the session that was taken down restores the server exactly when
the request did not get past its checks. -/
theorem SessionRequestRun.unchanged_iff {before app later : Server}
    {owner : Int → Int} {connId sessionId : Int} {package : Package Message}
    (owned : before.files.Owned owner) (keyed : before.sessions.Keyed)
    (run : SessionRequestRun before connId package app
      (.putFileSession sessionId))
    (files : later.files.fileList = app.files.fileList)
    (removed : later.sessions.sessionList =
      app.sessions.sessionList.erase sessionId) :
    Unchanged before later ↔ ¬Passes before connId package := by
  generalize taken : TransSelf.putFileSession sessionId = self at run
  cases run with
  | refused stopped sameFiles same =>
      cases taken
      refine iff_of_true ⟨by rw [files, sameFiles], ?_⟩ stopped
      rw [removed, same.sessionList]
      exact Table.erase_of_absent keyed.not_found_invalidId
  | reused passes sameFiles same live =>
      cases taken
      refine iff_of_false ?_ (not_not.mpr passes)
      rintro ⟨-, sessions⟩
      rw [removed, same.sessionList] at sessions
      rw [← sessions, Table.lookup_erase_self] at live
      cases live
  | stored passes entry =>
      refine iff_of_false ?_ (not_not.mpr passes)
      rintro ⟨sameFiles, -⟩
      have absent := owned.not_found_nextId
      unfold SharingFileManager.findFile at entry absent
      rw [← files, sameFiles, absent] at entry
      cases entry

variable {messageSize : Message → Nat}

theorem onError_waits (failed : MultiplyPhaseTransaction TransSelf)
    (connId : Int) (errorInfo : Foundation.ErrorInfo)
    (frame : Frame Server TransSelf Message) :
    ((onError messageSize failed connId errorInfo).after frame).waits =
      frame.waits := by
  unfold onError
  split <;> rfl

theorem onError_app {failed : MultiplyPhaseTransaction TransSelf}
    {sessionId : Int} (self : failed.self = .putFileSession sessionId)
    (connId : Int) (errorInfo : Foundation.ErrorInfo)
    (frame : Frame Server TransSelf Message) :
    ((onError messageSize failed connId errorInfo).after frame).app =
      { frame.app with
        sessions := frame.app.sessions.removeSession sessionId } := by
  unfold onError
  rw [self]
  rfl

/-- `PutFileSessionTrans::on_active` on an error, or on a content that does
not parse. -/
theorem PutFileSessionTrans.onActive_error
    (trans : MultiplyPhaseTransaction TransSelf) (sessionId : Int)
    {package : Package Message}
    (error : ∀ response,
      package.content.bind Message.asRspNodePutFileSession =
        some response → response.error ≠ none) (app : Server) :
    Action.Ensures (PutFileSessionTrans.onActive trans sessionId package)
      (Worker.startFrame app (.putFileSession sessionId))
      (fun _ frame => frame.app = { app with
        sessions := app.sessions.removeSession sessionId })
      (fun _ frame => frame.app = app ∧
        frame.self = .putFileSession sessionId) := by
  simp only [PutFileSessionTrans.onActive, parse, Action.ensures_bind,
    Action.ensures_check]
  refine ⟨fun response parsed => ?_, fun _ _ => ⟨rfl, rfl⟩⟩
  have selected : package.content.bind Message.asRspNodePutFileSession =
      some response := by
    unfold Package.parseToProtocol at parsed
    split at parsed
    · cases parsed
      assumption
    · cases parsed
  cases found : response.error with
  | none => exact absurd found (error response selected)
  | some info =>
      simp only [Action.ensures_bind, ensures_onApp, removeSession,
        sendBackMessage, Server.onSessions, Action.ensures_zoom,
        Action.ensures_modify, ensures_sendBackProtocol]
      rfl

/-- The session has been removed since. -/
def Removed (before : Server) (sessionId : Int) (after : Server) : Prop :=
  after.files.fileList = before.files.fileList ∧
    after.sessions.sessionList = before.sessions.sessionList.erase sessionId

/-! ## Answers -/

/-- What came between two states changed neither the file tree nor the
sessions, nor the transaction. -/
structure Undisturbed (transId : Int) (first second : ServerWorker) :
    Prop where
  files : second.app.files.fileList = first.app.files.fileList
  sessions : second.app.sessions.sessionList =
    first.app.sessions.sessionList
  waiting : second.transList[transId]? = first.transList[transId]?

/-- The request for a put session is answered with an error: `on_init` threw,
the storage node answered with an error, or the wait timed out. -/
inductive AnsweredWithError (messageSize : Message → Nat)
    (worker : ServerWorker) (connId : Int) (package : Package Message) :
    ServerWorker → Prop
  | thrown {now serviceId later}
      (received : Worker.receive (program messageSize) now connId serviceId
        package worker = some later)
      (ended : later.transList[worker.nextTransId]? = none) :
      AnsweredWithError messageSize worker connId package later
  | response {now serviceId middle other waiting}
      {later : ServerWorker} {nodeNow nodeConnId nodeServiceId : Int}
      {response : Package Message}
      (received : Worker.receive (program messageSize) now connId serviceId
        package worker = some middle)
      (undisturbed : Undisturbed worker.nextTransId middle other)
      (waits : other.transList[worker.nextTransId]? = some waiting)
      (answers : other.waitingTransaction response = some waiting)
      (fits : waiting.fits nodeConnId nodeServiceId response.command = true)
      (error : ∀ content,
        response.content.bind Message.asRspNodePutFileSession =
          some content → content.error ≠ none)
      (answered : Worker.receive (program messageSize) nodeNow nodeConnId
        nodeServiceId response other = some later) :
      AnsweredWithError messageSize worker connId package later
  | timeout {now serviceId middle other}
      {waiting : MultiplyPhaseTransaction TransSelf}
      {later : ServerWorker} {timerNow timerId : Int} {timer : Timer}
      (received : Worker.receive (program messageSize) now connId serviceId
        package worker = some middle)
      (undisturbed : Undisturbed worker.nextTransId middle other)
      (waits : other.transList[worker.nextTransId]? = some waiting)
      (due : other.dueTimer timerNow timerId = some timer)
      (own : timer.transId = worker.nextTransId)
      (expired : Worker.processExpiryTimer (program messageSize) timerNow
        timerId other = some later) :
      AnsweredWithError messageSize worker connId package later

theorem SessionRequestRun.taken {before app : Server} {connId : Int}
    {package : Package Message} {self : TransSelf}
    (run : SessionRequestRun before connId package app self) :
    ∃ sessionId, self = .putFileSession sessionId := by
  cases run <;> exact ⟨_, rfl⟩

section Answered

variable {worker later : ServerWorker} {connId : Int}
  {package : Package Message} {owner : Int → Int}

theorem onInit_of_putFileSession {trans : MultiplyPhaseTransaction TransSelf}
    {sessionId : Int} (self : trans.self = .putFileSession sessionId) :
    onInit trans connId package =
      PutFileSessionTrans.onInit trans connId package := by
  unfold onInit
  rw [self]

theorem onActive_of_putFileSession
    {trans : MultiplyPhaseTransaction TransSelf} {sessionId : Int}
    (self : trans.self = .putFileSession sessionId) :
    onActive trans connId package =
      PutFileSessionTrans.onActive trans sessionId package := by
  unfold onActive
  rw [self]

/-- The start of a session request. -/
theorem started_sessionRequest (owned : worker.app.files.Owned owner)
    (keyed : worker.app.sessions.Keyed)
    (starts : worker.waitingTransaction package = none)
    (command : package.command = 1027) {now serviceId : Int}
    (received : Worker.receive (program messageSize) now connId serviceId
      package worker = some later) :
    Worker.Started (program messageSize) connId package worker
      (.putFileSession 0) later := by
  refine Worker.started_of_receive starts (by rw [command]; rfl) ?_
    (fun failed errorInfo frame =>
      onError_waits failed connId errorInfo frame) received
  intro trans self
  rw [program_onInit, onInit_of_putFileSession self]
  exact (PutFileSessionTrans.onInit_run owned keyed trans).mono
    (fun _ _ ran => ran.2) fun _ _ ran => ran.2

/-- The session that a waiting session request has taken down. -/
theorem run_of_waiting (owned : worker.app.files.Owned owner)
    (keyed : worker.app.sessions.Keyed)
    (started : Worker.Started (program messageSize) connId package worker
      (.putFileSession 0) later)
    {waiting : MultiplyPhaseTransaction TransSelf}
    (waits : later.transList[worker.nextTransId]? = some waiting) :
    ∃ sessionId, waiting.self = .putFileSession sessionId ∧
      SessionRequestRun worker.app connId package later.app
        (.putFileSession sessionId) := by
  cases started with
  | ends ran self app entry =>
      rw [entry] at waits
      cases waits
  | waits ran app entry transId self =>
      rw [entry] at waits
      cases waits
      rw [program_onInit, onInit_of_putFileSession rfl] at ran
      have run := ((PutFileSessionTrans.onInit_run owned keyed _).of_ok
        ran).1
      obtain ⟨sessionId, taken⟩ := run.taken
      refine ⟨sessionId, self.trans taken, ?_⟩
      rwa [taken, ← app] at run

/-- A request that is answered with an error leaves no trace exactly when it
was refused by a check before the first update. -/
theorem unchanged_iff_not_passes
    (reachable : (serverMachine messageSize).Reachable worker)
    (starts : worker.waitingTransaction package = none)
    (command : package.command = 1027)
    (answered : AnsweredWithError messageSize worker connId package later) :
    Unchanged worker.app later.app ↔
      ¬Passes worker.app connId package := by
  obtain ⟨owner, forest⟩ := (Sound.of_reachable reachable).running
  have owned := forest.owned
  have keyed := keyed_of_reachable reachable
  cases answered with
  | thrown received ended =>
      cases started_sessionRequest owned keyed starts command received with
      | waits ran app entry transId self =>
          rw [entry] at ended
          cases ended
      | ends ran self app entry =>
          rw [program_onInit, onInit_of_putFileSession rfl] at ran
          have run := ((PutFileSessionTrans.onInit_run owned keyed _).of_error
            ran).1
          obtain ⟨sessionId, taken⟩ := run.taken
          rw [taken] at run
          rw [program_onError, onError_app (self.trans taken)] at app
          exact run.unchanged_iff owned keyed (by rw [app]; rfl)
            (by rw [app]; rfl)
  | @response now serviceId middle other waiting _ nodeNow nodeConnId
      nodeServiceId response received undisturbed waits answers fits error
      answered =>
      have started := started_sessionRequest owned keyed starts command
        received
      rw [undisturbed.waiting] at waits
      obtain ⟨sessionId, self, run⟩ :=
        run_of_waiting owned keyed started waits
      have undone : Removed middle.app sessionId later.app := by
        have clear : waiting.clearWaitingState.self =
            .putFileSession sessionId := self
        refine Worker.receive_active_ensures _ answers fits ?_ answered
        rw [program_onActive, onActive_of_putFileSession clear, self]
        refine (PutFileSessionTrans.onActive_error _ sessionId error
          other.app).mono ?_ ?_
        · rintro _ frame app
          rw [app]
          exact ⟨undisturbed.files, by
            rw [← undisturbed.sessions]; rfl⟩
        · rintro fault frame ⟨app, taken⟩ failed same errorInfo
          rw [program_onError, onError_app (same.trans taken)]
          simp only [Worker.startFrame, app]
          exact ⟨undisturbed.files, by
            rw [← undisturbed.sessions]; rfl⟩
      exact run.unchanged_iff owned keyed undone.1 undone.2
  | @timeout now serviceId middle other waiting _ timerNow timerId timer
      received undisturbed waits due own expired =>
      have started := started_sessionRequest owned keyed starts command
        received
      have registered := waits
      rw [undisturbed.waiting] at waits
      obtain ⟨sessionId, self, run⟩ :=
        run_of_waiting owned keyed started waits
      have undone : Removed middle.app sessionId later.app := by
        refine Worker.expire_ensures _ due (own ▸ registered) ?_ expired
        have clear : waiting.clearWaitingState.self =
            .putFileSession sessionId := self
        rw [program_onError, onError_app clear]
        exact ⟨undisturbed.files, by
          rw [← undisturbed.sessions]; rfl⟩
      exact run.unchanged_iff owned keyed undone.1 undone.2

end Answered

/-! ## An upload whose wait times out -/

/-- A request of the root user for a session that uploads `f`. -/
def uploadPackage : Package Message where
  command := 1027
  selfPackageId := 2
  triggerPackageId := 0
  content := some (.reqPutFileSession
    { groupId := 1, filePath := ['f'], maxFragment := 1 })

def uploadingWorker : ServerWorker :=
  (Worker.receive (program fun _ => 0) 0 5 0 uploadPackage
    openedWorker).get (by decide +kernel)

/-- The timer of the wait has fired. -/
def timedOutWorker : ServerWorker :=
  (Worker.processExpiryTimer (program fun _ => 0) 1000000000 1
    uploadingWorker).get (by decide +kernel)

theorem timedOutWorker_answeredWithError :
    AnsweredWithError (fun _ => 0) openedWorker 5 uploadPackage
      timedOutWorker :=
  .timeout (Option.some_get _).symm ⟨rfl, rfl, rfl⟩
    (Option.some_get (by decide +kernel)).symm
    (Option.some_get (by decide +kernel)).symm
    (by decide +kernel) (Option.some_get _).symm

theorem timedOutWorker_unchanged_iff :
    Unchanged openedWorker.app timedOutWorker.app ↔
      ¬Passes openedWorker.app 5 uploadPackage :=
  unchanged_iff_not_passes ⟨openingEvents, openedWorker_reaches⟩
    (by decide +kernel) rfl timedOutWorker_answeredWithError

theorem not_unchanged_always :
    ¬∀ (worker later : ServerWorker) (connId : Int)
        (package : Package Message),
      (serverMachine fun _ => 0).Reachable worker →
      worker.waitingTransaction package = none →
      package.command = 1027 →
      AnsweredWithError (fun _ => 0) worker connId package later →
      Unchanged worker.app later.app := by
  intro always
  obtain ⟨files, -⟩ := always openedWorker timedOutWorker 5 uploadPackage
    ⟨openingEvents, openedWorker_reaches⟩ (by decide +kernel) rfl
    timedOutWorker_answeredWithError
  exact absurd files (by decide +kernel)

end ResourceServer
end Spaceless
