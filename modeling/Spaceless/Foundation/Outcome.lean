import Spaceless.Foundation.Postcondition

/-!
# What a step does to the transactions and to the outgoing queue

A step of the worker touches at most one transaction, and it pushes only what
the handlers of that step send.
-/

namespace Spaceless
namespace Foundation

open Logic

namespace Worker

variable {App Self Message Call : Type}

/-! ## Sending and waiting -/

@[simp] theorem sendProtocol_transList (protocol : Protocol Message)
    (worker : Worker App Self Message) (send : Send Message) :
    (sendProtocol protocol worker send).transList = worker.transList := by
  unfold sendProtocol
  split <;> rfl

@[simp] theorem sendAll_transList (protocol : Protocol Message)
    (worker : Worker App Self Message) (sends : List (Send Message)) :
    (sendAll protocol worker sends).transList = worker.transList := by
  induction sends generalizing worker with
  | nil => rfl
  | cons send sends inductionHypothesis =>
      exact (inductionHypothesis _).trans (sendProtocol_transList ..)

@[simp] theorem foldl_registerTimer_transList (now transId : Int)
    (worker : Worker App Self Message) (waits : List Wait) :
    (waits.foldl (registerTimer now transId) worker).transList =
      worker.transList := by
  induction waits generalizing worker with
  | nil => rfl
  | cons wait waits inductionHypothesis => exact inductionHypothesis _

@[simp] theorem sendAll_nextTransId (protocol : Protocol Message)
    (worker : Worker App Self Message) (sends : List (Send Message)) :
    (sendAll protocol worker sends).nextTransId = worker.nextTransId := by
  induction sends generalizing worker with
  | nil => rfl
  | cons send sends inductionHypothesis =>
      refine (inductionHypothesis _).trans ?_
      unfold sendProtocol
      split <;> rfl

@[simp] theorem foldl_registerTimer_nextTransId (now transId : Int)
    (worker : Worker App Self Message) (waits : List Wait) :
    (waits.foldl (registerTimer now transId) worker).nextTransId =
      worker.nextTransId := by
  induction waits generalizing worker with
  | nil => rfl
  | cons wait waits inductionHypothesis => exact inductionHypothesis _

@[simp] theorem foldl_waitNextPhase_id
    (trans : MultiplyPhaseTransaction Self) (waits : List Wait) :
    (waits.foldl MultiplyPhaseTransaction.waitNextPhase trans).id =
      trans.id := by
  induction waits generalizing trans with
  | nil => rfl
  | cons wait waits inductionHypothesis => exact inductionHypothesis _

@[simp] theorem foldl_waitNextPhase_self
    (trans : MultiplyPhaseTransaction Self) (waits : List Wait) :
    (waits.foldl MultiplyPhaseTransaction.waitNextPhase trans).self =
      trans.self := by
  induction waits generalizing trans with
  | nil => rfl
  | cons wait waits inductionHypothesis => exact inductionHypothesis _

theorem foldl_waitNextPhase_isWaiting
    {trans : MultiplyPhaseTransaction Self} {waits : List Wait}
    (idle : trans.isWaiting = false) :
    (waits.foldl MultiplyPhaseTransaction.waitNextPhase trans).isWaiting =
      true ↔ waits ≠ [] := by
  have after_wait (waits : List Wait)
      (trans : MultiplyPhaseTransaction Self)
      (waiting : trans.isWaiting = true) :
      (waits.foldl MultiplyPhaseTransaction.waitNextPhase trans).isWaiting =
        true := by
    induction waits generalizing trans with
    | nil => exact waiting
    | cons wait waits inductionHypothesis => exact inductionHypothesis _ rfl
  cases waits with
  | nil => simp [idle]
  | cons wait waits =>
      simpa using after_wait waits (trans.waitNextPhase wait) rfl

/-- The two workers have the same queue, package ids and bindings. -/
structure SameOutgoing (first second : Worker App Self Message) : Prop where
  outQueue : first.outQueue = second.outQueue
  packages : first.packages = second.packages
  bindList : first.bindList = second.bindList

theorem foldl_registerTimer_outgoing (now transId : Int)
    (worker : Worker App Self Message) (waits : List Wait) :
    SameOutgoing (waits.foldl (registerTimer now transId) worker) worker := by
  induction waits generalizing worker with
  | nil => exact ⟨rfl, rfl, rfl⟩
  | cons wait waits inductionHypothesis =>
      have same := inductionHypothesis (registerTimer now transId worker wait)
      exact ⟨same.outQueue, same.packages, same.bindList⟩

theorem finish_outgoing
    (after : MultiplyPhaseTransaction Self × Worker App Self Message) :
    SameOutgoing (finish after) after.2 := by
  unfold finish
  split <;> exact ⟨rfl, rfl, rfl⟩

/-- The worker with the package in its `PackageManager`. -/
def registerPackage (package : Package Message)
    (worker : Worker App Self Message) : Worker App Self Message :=
  { worker with
    packages :=
      { packageList := worker.packages.packageList.insert
          worker.packages.nextId package
        nextId := worker.packages.nextId + 1 } }

/-- A message on the queue comes from a send: it carries what the send says,
under a fresh package id that is bound as the send asks. -/
structure Carries (before after : Worker App Self Message)
    (send : Send Message) (out : OutMessage Message) : Prop where
  content : out.package.content = some send.message
  trigger : out.package.triggerPackageId = send.triggerPackageId
  serviceId : out.serviceId = send.serviceId
  fresh : before.packages.nextId ≤ out.package.selfPackageId ∧
    out.package.selfPackageId < after.packages.nextId
  bound : ∀ transId,
    after.bindList[out.package.selfPackageId]? = some transId →
    before.bindList[out.package.selfPackageId]? = some transId ∨
      transId = send.bindTransId ∧ transId ≠ 0

/-- All that was pushed and bound since comes from allowed sends. -/
structure Pushes (allowed : Send Message → Prop)
    (before after : Worker App Self Message) : Prop where
  counted : before.packages.nextId ≤ after.packages.nextId
  bound : ∀ packageId transId : Int,
    after.bindList[packageId]? = some transId →
    before.bindList[packageId]? = some transId ∨
      (before.packages.nextId ≤ packageId ∧
        packageId < after.packages.nextId) ∧
        ∃ send, allowed send ∧ transId = send.bindTransId ∧ transId ≠ 0
  queue : ∃ pushed, after.outQueue = before.outQueue ++ pushed ∧
    ∀ out ∈ pushed, ∃ send, allowed send ∧ Carries before after send out

namespace Pushes

variable {allowed : Send Message → Prop}
  {before middle after : Worker App Self Message}

theorem refl (worker : Worker App Self Message) :
    Pushes allowed worker worker where
  counted := Int.le_refl _
  bound := fun _ _ found => Or.inl found
  queue := ⟨[], (List.append_nil _).symm, by simp⟩

theorem trans (first : Pushes allowed before middle)
    (second : Pushes allowed middle after) :
    Pushes allowed before after where
  counted := Int.le_trans first.counted second.counted
  bound := by
    intro packageId transId found
    have grows := first.counted
    have growsMore := second.counted
    rcases second.bound packageId transId found with old | ⟨range, new⟩
    · rcases first.bound packageId transId old with older | ⟨range, new⟩
      · exact Or.inl older
      · exact Or.inr ⟨by omega, new⟩
    · exact Or.inr ⟨by omega, new⟩
  queue := by
    have grows := first.counted
    have growsMore := second.counted
    obtain ⟨pushed, queue, all⟩ := first.queue
    obtain ⟨more, longer, rest⟩ := second.queue
    refine ⟨pushed ++ more, by rw [longer, queue, List.append_assoc], ?_⟩
    intro out present
    rcases List.mem_append.mp present with old | new
    · obtain ⟨send, permitted, carries⟩ := all out old
      have fresh := carries.fresh
      refine ⟨send, permitted, carries.content, carries.trigger,
        carries.serviceId, by omega, fun transId found => ?_⟩
      rcases second.bound _ _ found with kept | ⟨range, -⟩
      · exact carries.bound transId kept
      · omega
    · obtain ⟨send, permitted, carries⟩ := rest out new
      have fresh := carries.fresh
      refine ⟨send, permitted, carries.content, carries.trigger,
        carries.serviceId, by omega, fun transId found => ?_⟩
      rcases carries.bound transId found with kept | asked
      · rcases first.bound _ _ kept with older | ⟨range, -⟩
        · exact Or.inl older
        · omega
      · exact Or.inr asked

theorem mono {weaker : Send Message → Prop}
    (pushes : Pushes allowed before after)
    (implies : ∀ send, allowed send → weaker send) :
    Pushes weaker before after where
  counted := pushes.counted
  bound := by
    intro packageId transId found
    refine (pushes.bound packageId transId found).imp_right ?_
    rintro ⟨range, send, permitted, asked⟩
    exact ⟨range, send, implies send permitted, asked⟩
  queue := by
    obtain ⟨pushed, queue, all⟩ := pushes.queue
    refine ⟨pushed, queue, fun out present => ?_⟩
    obtain ⟨send, permitted, carries⟩ := all out present
    exact ⟨send, implies send permitted, carries⟩

/-- Only the queue, the package ids and the bindings matter. -/
theorem congr {first last : Worker App Self Message}
    (pushes : Pushes allowed before after)
    (start : SameOutgoing first before)
    (finish : SameOutgoing last after) :
    Pushes allowed first last := by
  obtain ⟨counted, bound, queue⟩ := pushes
  rw [← start.packages, ← finish.packages] at counted
  rw [← start.packages, ← start.bindList, ← finish.packages,
    ← finish.bindList] at bound
  rw [← start.outQueue, ← finish.outQueue] at queue
  refine ⟨counted, bound, ?_⟩
  obtain ⟨pushed, longer, all⟩ := queue
  refine ⟨pushed, longer, fun out present => ?_⟩
  obtain ⟨send, permitted, carries⟩ := all out present
  exact ⟨send, permitted, carries.content, carries.trigger,
    carries.serviceId, by
      rw [start.packages, finish.packages]
      exact carries.fresh, by
      rw [start.bindList, finish.bindList]
      exact carries.bound⟩

/-- Registering a received package and removing it later takes its id. -/
theorem register {package : Package Message} {packageId : Int}
    (pushes : Pushes allowed (registerPackage package before) after) :
    Pushes allowed before (removePackage packageId after) where
  counted := by
    have counted := pushes.counted
    change before.packages.nextId + 1 ≤ _ at counted
    change before.packages.nextId ≤ after.packages.nextId
    omega
  bound := by
    intro packageId transId found
    refine (pushes.bound packageId transId found).imp_right ?_
    rintro ⟨range, new⟩
    change before.packages.nextId + 1 ≤ packageId ∧ _ at range
    change (before.packages.nextId ≤ packageId ∧
      packageId < after.packages.nextId) ∧ _
    exact ⟨⟨by omega, range.2⟩, new⟩
  queue := by
    obtain ⟨pushed, queue, all⟩ := pushes.queue
    refine ⟨pushed, queue, fun out present => ?_⟩
    obtain ⟨send, permitted, carries⟩ := all out present
    have fresh := carries.fresh
    change before.packages.nextId + 1 ≤ _ ∧ _ at fresh
    exact ⟨send, permitted, carries.content, carries.trigger,
      carries.serviceId, ⟨by omega, fresh.2⟩, carries.bound⟩

/-- Bindings may be removed after. -/
theorem unbind (pushes : Pushes allowed before after) (packageId : Int) :
    Pushes allowed before (removeBoundTransaction packageId after) where
  counted := pushes.counted
  bound := fun other transId found =>
    pushes.bound other transId (Table.lookup_of_lookup_erase found)
  queue := by
    obtain ⟨pushed, queue, all⟩ := pushes.queue
    refine ⟨pushed, queue, fun out present => ?_⟩
    obtain ⟨send, permitted, carries⟩ := all out present
    exact ⟨send, permitted, carries.content, carries.trigger,
      carries.serviceId, carries.fresh, fun transId found =>
        carries.bound transId (Table.lookup_of_lookup_erase found)⟩

theorem sendProtocol (protocol : Protocol Message) {send : Send Message}
    (permitted : allowed send) :
    Pushes allowed before (Worker.sendProtocol protocol before send) := by
  unfold Worker.sendProtocol
  split
  · exact refl before
  · have binds : ∀ packageId transId : Int,
        (if send.bindTransId ≠ 0 then
          before.bindList.insertIfNew before.packages.nextId send.bindTransId
        else before.bindList)[packageId]? = some transId →
        before.bindList[packageId]? = some transId ∨
          packageId = before.packages.nextId ∧
            transId = send.bindTransId ∧ transId ≠ 0 := by
      intro packageId transId found
      split at found
      · rename_i valid
        exact (Table.lookup_of_lookup_insertIfNew found).imp_right
          fun ⟨same, new⟩ => ⟨same.symm, new.symm, new ▸ valid⟩
      · exact Or.inl found
    constructor
    · dsimp only
      omega
    · intro packageId transId found
      refine (binds packageId transId found).imp_right ?_
      rintro ⟨rfl, asked⟩
      exact ⟨by dsimp only; omega, send, permitted, asked⟩
    · refine ⟨_, rfl, fun out present => ?_⟩
      rw [List.mem_singleton.mp present]
      refine ⟨send, permitted, rfl, rfl, rfl, by dsimp only; omega, ?_⟩
      intro transId found
      exact (binds _ transId found).imp_right And.right

theorem sendAll (protocol : Protocol Message)
    {sends : List (Send Message)} (all : ∀ send ∈ sends, allowed send) :
    Pushes allowed before (Worker.sendAll protocol before sends) := by
  induction sends generalizing before with
  | nil => exact refl before
  | cons send sends inductionHypothesis =>
      exact (sendProtocol protocol (all send List.mem_cons_self)).trans
        (inductionHypothesis fun other present =>
          all other (List.mem_cons_of_mem _ present))

end Pushes

/-! ## Member functions -/

section Member

variable (program : Program App Self Message Call) (now : Int)
  (worker : Worker App Self Message)
  (trans : MultiplyPhaseTransaction Self)
  (handler : Handler App Self Message Unit)

@[simp] theorem runMember_id :
    (runMember program now worker trans handler).2.1.id = trans.id := by
  simp [runMember]

@[simp] theorem runMember_self :
    (runMember program now worker trans handler).2.1.self =
      (handler.after (startFrame worker.app trans.self)).self := by
  simp [runMember, startFrame, Action.after]

@[simp] theorem runMember_transList :
    (runMember program now worker trans handler).2.2.transList =
      worker.transList := by
  simp [runMember]

@[simp] theorem runMember_nextTransId :
    (runMember program now worker trans handler).2.2.nextTransId =
      worker.nextTransId := by
  simp [runMember]

variable {program now worker trans handler} in
/-- What a run of a member function leaves of the registration. -/
theorem runMember_keeps {result : Except Fault Unit}
    {after : MultiplyPhaseTransaction Self × Worker App Self Message}
    (run : runMember program now worker trans handler = (result, after)) :
    after.1.id = trans.id ∧ after.2.transList = worker.transList ∧
      after.2.nextTransId = worker.nextTransId := by
  have transId := runMember_id program now worker trans handler
  have sameList := runMember_transList program now worker trans handler
  have counted := runMember_nextTransId program now worker trans handler
  rw [run] at transId sameList counted
  exact ⟨transId, sameList, counted⟩

theorem runMember_isWaiting (idle : trans.isWaiting = false) :
    (runMember program now worker trans handler).2.1.isWaiting = true ↔
      (handler.after (startFrame worker.app trans.self)).waits ≠ [] :=
  foldl_waitNextPhase_isWaiting idle

variable {program now worker trans handler} in
/-- All that a run of a member function leaves behind. -/
theorem runMember_spec {result : Except Fault Unit}
    {after : MultiplyPhaseTransaction Self × Worker App Self Message}
    (run : runMember program now worker trans handler = (result, after))
    (idle : trans.isWaiting = false) :
    handler (startFrame worker.app trans.self) =
        (result, handler.after (startFrame worker.app trans.self)) ∧
      after.2.app =
        (handler.after (startFrame worker.app trans.self)).app ∧
      after.1.self =
        (handler.after (startFrame worker.app trans.self)).self ∧
      (after.1.isWaiting = true ↔
        (handler.after (startFrame worker.app trans.self)).waits ≠ []) := by
  have app := runMember_app program now worker trans handler
  have self := runMember_self program now worker trans handler
  have waits := runMember_isWaiting program now worker trans handler idle
  have first := runMember_result program now worker trans handler
  rw [run] at app self waits first
  exact ⟨Prod.ext first.symm rfl, app, self, waits⟩

theorem runMember_pushes {allowed : Send Message → Prop}
    (all : ∀ send ∈
      (handler.after (startFrame worker.app trans.self)).sends,
      allowed send) :
    Pushes allowed worker
      (runMember program now worker trans handler).2.2 := by
  have sent : Pushes allowed
      { worker with
        app := (handler.after (startFrame worker.app trans.self)).app }
      (sendAll program.protocol
        { worker with
          app := (handler.after (startFrame worker.app trans.self)).app }
        (handler.after (startFrame worker.app trans.self)).sends) :=
    Pushes.sendAll _ all
  exact sent.congr ⟨rfl, rfl, rfl⟩ (foldl_registerTimer_outgoing ..)

end Member

section Call

variable {program : Program App Self Message Call} {now connId : Int}
  {worker : Worker App Self Message}
  {trans : MultiplyPhaseTransaction Self}
  {handler : Handler App Self Message Unit}
  {after : MultiplyPhaseTransaction Self × Worker App Self Message}

/-- How a member function ended: normally, or in an exception that its error
handler took. -/
theorem callTransaction_cases
    (called : callTransaction program now connId worker trans handler =
      some after) :
    runMember program now worker trans handler = (.ok (), after) ∨
      ∃ thrown errorInfo failed result,
        runMember program now worker trans handler =
          (.error (.exception thrown), failed) ∧
        runMember program now failed.2 failed.1
          (program.onError failed.1 connId errorInfo) = (result, after) := by
  unfold callTransaction at called
  split at called
  · rename_i later run
    cases called
    exact Or.inl run
  · cases called
  · rename_i thrown failed left run
    split at called
    · cases called
    · rename_i errorInfo _
      split at called
      rename_i result later rerun
      split at called
      · cases called
        exact Or.inr ⟨thrown, errorInfo, (failed, left), result, run, rerun⟩
      · cases called

/-- The postcondition rule for a call: what the error handler makes of the
state that an exception leaves. -/
theorem callTransaction_ensures {post : App → Prop}
    (handled : Action.Ensures handler (startFrame worker.app trans.self)
      (fun _ frame => post frame.app)
      (fun _ frame => ∀ failed : MultiplyPhaseTransaction Self,
        failed.self = frame.self → ∀ errorInfo,
        post ((program.onError failed connId errorInfo).after
          (startFrame frame.app frame.self)).app))
    (called : callTransaction program now connId worker trans handler =
      some after) : post after.2.app := by
  have app := runMember_app program now worker trans handler
  have self := runMember_self program now worker trans handler
  have result := runMember_result program now worker trans handler
  rcases callTransaction_cases called with
    run | ⟨thrown, errorInfo, failed, _, run, handledError⟩
  · rw [run] at app result
    unfold Action.Ensures at handled
    split at handled <;> rename_i outcome <;> rw [outcome] at result
    · rw [Action.after, outcome] at app
      exact app ▸ handled
    · cases result
  · rw [run] at app self result
    unfold Action.Ensures at handled
    split at handled <;> rename_i outcome <;> rw [outcome] at result
    · cases result
    · rw [Action.after, outcome] at app self
      have kept := handled failed.1 self errorInfo
      have appAfter := runMember_app program now failed.2 failed.1
        (program.onError failed.1 connId errorInfo)
      rw [handledError, app, self] at appAfter
      exact appAfter ▸ kept

/-- A call of a member function leaves the registration alone. -/
theorem callTransaction_keeps
    (called : callTransaction program now connId worker trans handler =
      some after) :
    after.1.id = trans.id ∧ after.2.transList = worker.transList ∧
      after.2.nextTransId = worker.nextTransId := by
  rcases callTransaction_cases called with
    run | ⟨thrown, errorInfo, failed, result, run, rerun⟩
  · exact runMember_keeps run
  · obtain ⟨transId, sameList, counted⟩ := runMember_keeps run
    obtain ⟨sameId, listAfter, countedAfter⟩ := runMember_keeps rerun
    exact ⟨sameId.trans transId, listAfter.trans sameList,
      countedAfter.trans counted⟩

theorem callTransaction_id
    (called : callTransaction program now connId worker trans handler =
      some after) : after.1.id = trans.id :=
  (callTransaction_keeps called).1

theorem callTransaction_transList
    (called : callTransaction program now connId worker trans handler =
      some after) : after.2.transList = worker.transList :=
  (callTransaction_keeps called).2.1

theorem callTransaction_nextTransId
    (called : callTransaction program now connId worker trans handler =
      some after) : after.2.nextTransId = worker.nextTransId :=
  (callTransaction_keeps called).2.2

/-- What the member function and the error handlers send is allowed. -/
theorem callTransaction_pushes {allowed : Send Message → Prop}
    (handled : ∀ send ∈
      (handler.after (startFrame worker.app trans.self)).sends,
      allowed send)
    (errors : ∀ failed errorInfo app, ∀ send ∈
      ((program.onError failed connId errorInfo).after
        (startFrame app failed.self)).sends, allowed send)
    (called : callTransaction program now connId worker trans handler =
      some after) : Pushes allowed worker after.2 := by
  have first := runMember_pushes program now worker trans handler handled
  rcases callTransaction_cases called with
    run | ⟨thrown, errorInfo, failed, result, run, rerun⟩
  · rwa [run] at first
  · have second := runMember_pushes program now failed.2 failed.1
      (program.onError failed.1 connId errorInfo)
      (errors failed.1 errorInfo failed.2.app)
    rw [rerun] at second
    rw [run] at first
    exact first.trans second

end Call

theorem finish_transList_of_ne
    {after : MultiplyPhaseTransaction Self × Worker App Self Message}
    {other : Int} (different : after.1.id ≠ other) :
    (finish after).transList[other]? = after.2.transList[other]? := by
  unfold finish
  split
  · exact Table.lookup_insert_of_ne _ _ different
  · exact Table.lookup_erase_of_ne _ different

@[simp] theorem finish_transList_self
    (after : MultiplyPhaseTransaction Self × Worker App Self Message) :
    (finish after).transList[after.1.id]? =
      if after.1.isWaiting then some after.1 else none := by
  unfold finish
  split <;> simp

/-! ## Received packages -/

/-- The branches of `trigger_transaction` on a received package. -/
inductive Received (program : Program App Self Message Call)
    (now connId serviceId : Int) (package : Package Message)
    (worker : Worker App Self Message) : Worker App Self Message → Prop
  | unknown (starts : worker.waitingTransaction package = none)
      (unregistered : program.findTransaction package.command = none) :
      Received program now connId serviceId package worker
        (removePackage worker.packages.nextId
          (registerPackage package worker))
  | onePhase {handler called}
      (starts : worker.waitingTransaction package = none)
      (registered : program.findTransaction package.command =
        some (.onePhase handler))
      (call : callOnePhase program connId package
        (registerPackage package worker) (handler now connId package) =
          some called) :
      Received program now connId serviceId package worker
        (removePackage worker.packages.nextId called)
  | multiplyPhase {factory after}
      (starts : worker.waitingTransaction package = none)
      (registered : program.findTransaction package.command =
        some (.multiplyPhase factory))
      (call : callTransaction program now connId
        { registerPackage package worker with
          nextTransId := worker.nextTransId + 1 }
        (MultiplyPhaseTransaction.init worker.nextTransId factory connId
          package.triggerSource)
        (program.onInit
          (MultiplyPhaseTransaction.init worker.nextTransId factory connId
            package.triggerSource) connId package) = some after) :
      Received program now connId serviceId package worker
        (removePackage worker.packages.nextId (finish after))
  | foreign {waiting}
      (answers : worker.waitingTransaction package = some waiting)
      (mismatch : waiting.fits connId serviceId package.command = false) :
      Received program now connId serviceId package worker
        (removePackage worker.packages.nextId
          (removeBoundTransaction package.triggerPackageId
            (registerPackage package worker)))
  | active {waiting after}
      (answers : worker.waitingTransaction package = some waiting)
      (fits : waiting.fits connId serviceId package.command = true)
      (call : callTransaction program now connId
        (registerPackage package worker) waiting.clearWaitingState
        (program.onActive waiting.clearWaitingState connId package) =
          some after) :
      Received program now connId serviceId package worker
        (removePackage worker.packages.nextId
          (removeBoundTransaction package.triggerPackageId (finish after)))

/-- How a request of a multiply-phase command starts: its transaction waits,
or an exception ended it. -/
inductive Started (program : Program App Self Message Call)
    (connId : Int) (package : Package Message)
    (worker : Worker App Self Message) (factory : Self) :
    Worker App Self Message → Prop
  | waits {later frame waiting}
      (ran : program.onInit
        (MultiplyPhaseTransaction.init worker.nextTransId factory connId
          package.triggerSource) connId package
        (startFrame worker.app factory) = (.ok (), frame))
      (app : later.app = frame.app)
      (entry : later.transList[worker.nextTransId]? = some waiting)
      (transId : waiting.id = worker.nextTransId)
      (self : waiting.self = frame.self) :
      Started program connId package worker factory later
  | ends {later frame fault failed errorInfo}
      (ran : program.onInit
        (MultiplyPhaseTransaction.init worker.nextTransId factory connId
          package.triggerSource) connId package
        (startFrame worker.app factory) = (.error fault, frame))
      (self : failed.self = frame.self)
      (app : later.app =
        ((program.onError failed connId errorInfo).after
          (startFrame frame.app frame.self)).app)
      (entry : later.transList[worker.nextTransId]? = none) :
      Started program connId package worker factory later

section Receive

variable {program : Program App Self Message Call}
  {now connId serviceId : Int} {package : Package Message}
  {worker later : Worker App Self Message}

theorem received_of_receive
    (received : receive program now connId serviceId package worker =
      some later) :
    Received program now connId serviceId package worker later := by
  simp only [receive, triggerTransaction, Table.lookup_insert_self,
    Option.map_eq_some_iff] at received
  obtain ⟨processed, step, rfl⟩ := received
  split at step
  · rename_i starts
    unfold createTransaction at step
    split at step
    · rename_i unregistered
      cases step
      exact .unknown starts unregistered
    · rename_i handler registered
      exact .onePhase starts registered step
    · rename_i factory registered
      obtain ⟨after, call, rfl⟩ := Option.map_eq_some_iff.mp step
      exact .multiplyPhase starts registered call
  · rename_i waiting answers
    obtain ⟨active, activated, rfl⟩ := Option.map_eq_some_iff.mp step
    unfold activeTransaction at activated
    split at activated
    · rename_i fits
      obtain ⟨after, call, rfl⟩ := Option.map_eq_some_iff.mp activated
      exact .active answers fits call
    · rename_i mismatch
      cases activated
      exact .foreign answers (Bool.not_eq_true _ ▸ mismatch)

/-- The postcondition rule for a received package. -/
theorem receive_post {post : App → Prop} (idle : post worker.app)
    (onePhase : worker.waitingTransaction package = none → ∀ handler,
      program.findTransaction package.command = some (.onePhase handler) →
      Frame.Leads (handler now connId package) (startFrame worker.app ())
        post)
    (onInit : worker.waitingTransaction package = none → ∀ factory trans,
      program.findTransaction package.command =
        some (.multiplyPhase factory) →
      trans.self = factory →
      Frame.Leads (program.onInit trans connId package)
        (startFrame worker.app factory) post)
    (onActive : ∀ waiting, worker.waitingTransaction package = some waiting →
      waiting.fits connId serviceId package.command = true →
      Frame.Leads (program.onActive waiting.clearWaitingState connId package)
        (startFrame worker.app waiting.self) post)
    (errors : ErrorsKeep program post)
    (received : receive program now connId serviceId package worker =
      some later) : post later.app := by
  cases received_of_receive received with
  | unknown starts unregistered => exact idle
  | onePhase starts registered call =>
      rw [removePackage_app]
      refine callOnePhase_post ?_ call
      exact onePhase starts _ registered
  | multiplyPhase starts registered call =>
      rw [removePackage_app, finish_app]
      refine callTransaction_post errors ?_ call
      exact onInit starts _ _ registered rfl
  | foreign answers mismatch => exact idle
  | active answers fits call =>
      rw [removePackage_app, removeBoundTransaction_app, finish_app]
      refine callTransaction_post errors ?_ call
      exact onActive _ answers fits

theorem callOnePhase_transList {handler : Handler App Unit Message Unit}
    (called : callOnePhase program connId package worker handler =
      some later) : later.transList = worker.transList := by
  simp only [callOnePhase] at called
  split at called
  · cases called
    exact sendAll_transList ..
  · cases called
  · split at called
    · cases called
    · cases called
      rw [sendAll_transList, sendAll_transList]

theorem callOnePhase_pushes {handler : Handler App Unit Message Unit}
    {allowed : Send Message → Prop}
    (handled : ∀ send ∈ (handler.after (startFrame worker.app ())).sends,
      allowed send)
    (errors : ∀ errorInfo, allowed
      { connId := connId, message := program.protocol.rspError errorInfo
        bindTransId := 0, triggerPackageId := package.selfPackageId
        triggerCmd := package.command, serviceId := 0 })
    (called : callOnePhase program connId package worker handler =
      some later) : Pushes allowed worker later := by
  have sent : Pushes allowed
      { worker with app := (handler.after (startFrame worker.app ())).app }
      (sendAll program.protocol
        { worker with app := (handler.after (startFrame worker.app ())).app }
        (handler.after (startFrame worker.app ())).sends) :=
    Pushes.sendAll _ handled
  have first : Pushes allowed worker _ :=
    sent.congr ⟨rfl, rfl, rfl⟩ ⟨rfl, rfl, rfl⟩
  simp only [callOnePhase] at called
  split at called
  · cases called
    exact first
  · cases called
  · split at called
    · cases called
    · rename_i errorInfo _
      cases called
      refine Pushes.trans first (Pushes.sendAll _ ?_)
      intro send present
      rw [List.mem_singleton.mp present]
      exact errors errorInfo

/-- A received package touches no transaction but the one it starts or
answers to. -/
theorem receive_transList_of_ne {other : Int}
    (notStarted : worker.nextTransId ≠ other)
    (notAnswered : ∀ waiting,
      worker.waitingTransaction package = some waiting →
      waiting.fits connId serviceId package.command = true →
      waiting.id ≠ other)
    (received : receive program now connId serviceId package worker =
      some later) :
    later.transList[other]? = worker.transList[other]? := by
  cases received_of_receive received with
  | unknown starts unregistered => rfl
  | onePhase starts registered call =>
      have same := callOnePhase_transList call
      simp only [removePackage, same, registerPackage]
  | multiplyPhase starts registered call =>
      have same := callTransaction_transList call
      have transId := callTransaction_id call
      change (finish _).transList[other]? = _
      rw [finish_transList_of_ne (by rwa [transId]), same]
      rfl
  | foreign answers mismatch => rfl
  | active answers fits call =>
      have same := callTransaction_transList call
      have transId := callTransaction_id call
      have different := notAnswered _ answers fits
      change (finish _).transList[other]? = _
      rw [finish_transList_of_ne (by rwa [transId]), same]
      rfl

/-- The postcondition rule for a response that fits. -/
theorem receive_active_ensures (post : App → Prop)
    {waiting : MultiplyPhaseTransaction Self}
    (answers : worker.waitingTransaction package = some waiting)
    (fits : waiting.fits connId serviceId package.command = true)
    (handled : Action.Ensures
      (program.onActive waiting.clearWaitingState connId package)
      (startFrame worker.app waiting.self)
      (fun _ frame => post frame.app)
      (fun _ frame => ∀ failed : MultiplyPhaseTransaction Self,
        failed.self = frame.self → ∀ errorInfo,
        post ((program.onError failed connId errorInfo).after
          (startFrame frame.app frame.self)).app))
    (received : receive program now connId serviceId package worker =
      some later) : post later.app := by
  cases received_of_receive received with
  | unknown starts unregistered =>
      rw [answers] at starts
      cases starts
  | onePhase starts registered call =>
      rw [answers] at starts
      cases starts
  | multiplyPhase starts registered call =>
      rw [answers] at starts
      cases starts
  | foreign other mismatch =>
      rw [answers] at other
      cases other
      rw [fits] at mismatch
      cases mismatch
  | @active other after sameAnswers _ call =>
      rw [answers] at sameAnswers
      cases sameAnswers
      change post (finish after).app
      rw [finish_app]
      refine callTransaction_ensures ?_ call
      exact handled

/-- The start of a transaction that waits exactly when `on_init` returns. -/
theorem started_of_receive {factory : Self}
    (starts : worker.waitingTransaction package = none)
    (registered : program.findTransaction package.command =
      some (.multiplyPhase factory))
    (waits : ∀ trans, trans.self = factory → Action.Ensures
      (program.onInit trans connId package) (startFrame worker.app factory)
      (fun _ frame => frame.waits ≠ []) (fun _ frame => frame.waits = []))
    (errors : ∀ failed errorInfo frame,
      ((program.onError failed connId errorInfo).after frame).waits =
        frame.waits)
    (received : receive program now connId serviceId package worker =
      some later) :
    Started program connId package worker factory later := by
  cases received_of_receive received with
  | unknown _ unregistered =>
      rw [registered] at unregistered
      cases unregistered
  | onePhase _ other call =>
      rw [registered] at other
      cases other
  | foreign answers mismatch =>
      rw [starts] at answers
      cases answers
  | active answers fits call =>
      rw [starts] at answers
      cases answers
  | @multiplyPhase other after _ same call =>
      rw [registered] at same
      cases same
      have transId := callTransaction_id call
      have same := finish_transList_self after
      rw [transId] at same
      change (finish after).transList[worker.nextTransId]? = _ at same
      have app := finish_app after
      rcases callTransaction_cases call with
        run | ⟨thrown, errorInfo, failed, result, run, rerun⟩
      · obtain ⟨ran, appRan, selfRan, waitsRan⟩ := runMember_spec run rfl
        have waiting : after.1.isWaiting = true :=
          waitsRan.mpr ((waits _ rfl).of_ok ran)
        rw [if_pos waiting] at same
        exact .waits ran (app.trans appRan) same transId selfRan
      · obtain ⟨ran, appRan, selfRan, waitsRan⟩ := runMember_spec run rfl
        have noWaits := (waits _ rfl).of_error ran
        have stopped : failed.1.isWaiting = false := by
          simpa [noWaits] using waitsRan
        obtain ⟨-, appError, -, waitsError⟩ := runMember_spec rerun stopped
        have idle : after.1.isWaiting = false := by
          rw [errors] at waitsError
          simpa [startFrame] using waitsError
        rw [if_neg (by simp [idle])] at same
        rw [appRan, selfRan] at appError
        exact .ends ran selfRan (app.trans appError) same

/-- The messages that a received package makes the worker push. -/
theorem receive_pushes {allowed : Send Message → Prop}
    (onePhase : worker.waitingTransaction package = none → ∀ handler,
      program.findTransaction package.command = some (.onePhase handler) →
      ∀ send ∈ ((handler now connId package).after
        (startFrame worker.app ())).sends, allowed send)
    (onInit : worker.waitingTransaction package = none → ∀ factory,
      program.findTransaction package.command =
        some (.multiplyPhase factory) →
      ∀ send ∈ ((program.onInit
        (MultiplyPhaseTransaction.init worker.nextTransId factory connId
          package.triggerSource) connId package).after
        (startFrame worker.app factory)).sends, allowed send)
    (onActive : ∀ waiting, worker.waitingTransaction package = some waiting →
      waiting.fits connId serviceId package.command = true →
      ∀ send ∈ ((program.onActive waiting.clearWaitingState connId
        package).after (startFrame worker.app waiting.self)).sends,
        allowed send)
    (onError : ∀ failed errorInfo app, ∀ send ∈
      ((program.onError failed connId errorInfo).after
        (startFrame app failed.self)).sends, allowed send)
    (errors : ∀ errorInfo, allowed
      { connId := connId, message := program.protocol.rspError errorInfo
        bindTransId := 0, triggerPackageId := package.selfPackageId
        triggerCmd := package.command, serviceId := 0 })
    (received : receive program now connId serviceId package worker =
      some later) : Pushes allowed worker later := by
  cases received_of_receive received with
  | unknown starts unregistered => exact (Pushes.refl _).register
  | @onePhase handler called starts registered call =>
      have pushes : Pushes allowed (registerPackage package worker)
          called := by
        refine callOnePhase_pushes ?_ errors call
        exact onePhase starts handler registered
      exact pushes.register
  | @multiplyPhase factory after starts registered call =>
      have pushes : Pushes allowed
          { registerPackage package worker with
            nextTransId := worker.nextTransId + 1 } after.2 := by
        refine callTransaction_pushes ?_ onError call
        exact onInit starts factory registered
      have finished : Pushes allowed (registerPackage package worker)
          (finish after) :=
        pushes.congr ⟨rfl, rfl, rfl⟩ (finish_outgoing after)
      exact finished.register
  | foreign answers mismatch =>
      exact ((Pushes.refl _).unbind _).register
  | @active waiting after answers fits call =>
      have pushes : Pushes allowed (registerPackage package worker)
          after.2 := by
        refine callTransaction_pushes ?_ onError call
        exact onActive waiting answers fits
      have finished : Pushes allowed (registerPackage package worker)
          (finish after) :=
        pushes.congr ⟨rfl, rfl, rfl⟩ (finish_outgoing after)
      exact (finished.unbind _).register

end Receive

/-! ## Expired timers and internal calls -/

/-- The timer with the id, once its time has come. -/
def dueTimer (worker : Worker App Self Message) (now timerId : Int) :
    Option Timer :=
  (worker.timers.find? fun timer => timer.timerId == timerId).filter
    fun timer => timer.expiryTime ≤ now

/-- The branches of `process_expiry_timer`. -/
inductive Expired (program : Program App Self Message Call)
    (now timerId : Int) (worker : Worker App Self Message) :
    Worker App Self Message → Prop
  | early (notDue : worker.dueTimer now timerId = none) :
      Expired program now timerId worker worker
  | gone (timer : Timer) (due : worker.dueTimer now timerId = some timer)
      (unregistered : worker.transList[timer.transId]? = none) :
      Expired program now timerId worker (popTimer timer worker)
  | ended {waiting after} (timer : Timer)
      (due : worker.dueTimer now timerId = some timer)
      (registered : worker.transList[timer.transId]? = some waiting)
      (run : runMember program now worker waiting.clearWaitingState
        (program.onError waiting.clearWaitingState waiting.waitConnId
          (toErrorInfo .errTransactionTimeout)) = (.ok (), after)) :
      Expired program now timerId worker (popTimer timer (finish after))
  | failed {waiting fault after left} (timer : Timer)
      (due : worker.dueTimer now timerId = some timer)
      (registered : worker.transList[timer.transId]? = some waiting)
      (run : runMember program now worker waiting.clearWaitingState
        (program.onError waiting.clearWaitingState waiting.waitConnId
          (toErrorInfo .errTransactionTimeout)) =
            (.error fault, after, left)) :
      Expired program now timerId worker
        (popTimer timer
          { left with transList := left.transList.insert after.id after })

section Expire

variable {program : Program App Self Message Call} {now timerId : Int}
  {worker later : Worker App Self Message}

theorem expired_of_processExpiryTimer
    (expired : processExpiryTimer program now timerId worker =
      some later) : Expired program now timerId worker later := by
  unfold processExpiryTimer at expired
  split at expired
  · cases expired
  · rename_i timer search
    split at expired
    · cases expired
    · split at expired
      · rename_i early
        cases expired
        refine .early ?_
        rw [dueTimer, search]
        simpa using early
      · rename_i late
        have due : worker.dueTimer now timerId = some timer := by
          rw [dueTimer, search]
          simpa using Int.not_lt.mp late
        obtain ⟨ended, step, rfl⟩ := Option.map_eq_some_iff.mp expired
        unfold transactionTimeout at step
        split at step
        · rename_i unregistered
          cases step
          exact .gone timer due unregistered
        · rename_i waiting registered
          simp only at step
          split at step
          · rename_i after run
            cases step
            exact .ended timer due registered run
          · rename_i fault after left run
            split at step
            · cases step
              exact .failed timer due registered run
            · cases step

/-- The postcondition rule for a timeout. -/
theorem expire_ensures (post : App → Prop) {timer : Timer}
    {waiting : MultiplyPhaseTransaction Self}
    (due : worker.dueTimer now timerId = some timer)
    (registered : worker.transList[timer.transId]? = some waiting)
    (handled : post ((program.onError waiting.clearWaitingState
      waiting.waitConnId (toErrorInfo .errTransactionTimeout)).after
        (startFrame worker.app waiting.self)).app)
    (expired : processExpiryTimer program now timerId worker =
      some later) : post later.app := by
  have app := runMember_app program now worker waiting.clearWaitingState
    (program.onError waiting.clearWaitingState waiting.waitConnId
      (toErrorInfo .errTransactionTimeout))
  cases expired_of_processExpiryTimer expired with
  | early notDue =>
      rw [due] at notDue
      cases notDue
  | gone other sameDue unregistered =>
      rw [due] at sameDue
      cases sameDue
      rw [registered] at unregistered
      cases unregistered
  | @ended other after _ sameDue sameRegistered run =>
      rw [due] at sameDue
      cases sameDue
      rw [registered] at sameRegistered
      cases sameRegistered
      rw [run] at app
      rw [popTimer_app, finish_app, app]
      exact handled
  | @failed other fault after left _ sameDue sameRegistered run =>
      rw [due] at sameDue
      cases sameDue
      rw [registered] at sameRegistered
      cases sameRegistered
      rw [run] at app
      rw [popTimer_app, app]
      exact handled

/-- An expired timer touches no transaction but its own. -/
theorem expire_transList_of_ne {other : Int}
    (notFired : ∀ timer, worker.dueTimer now timerId = some timer →
      ∀ waiting, worker.transList[timer.transId]? = some waiting →
      waiting.id ≠ other)
    (expired : processExpiryTimer program now timerId worker =
      some later) :
    later.transList[other]? = worker.transList[other]? := by
  cases expired_of_processExpiryTimer expired with
  | early notDue => rfl
  | gone timer due unregistered => rfl
  | @ended waiting after timer due registered run =>
      obtain ⟨transId, same, -⟩ := runMember_keeps run
      have different := notFired timer due waiting registered
      change (finish _).transList[other]? = _
      rw [finish_transList_of_ne (by rwa [transId]), same]
  | @failed waiting fault after left timer due registered run =>
      obtain ⟨transId, same, -⟩ := runMember_keeps run
      change after.id = waiting.id at transId
      change left.transList = worker.transList at same
      have different := notFired timer due waiting registered
      change (left.transList.insert after.id after)[other]? = _
      rw [Table.lookup_insert_of_ne _ _ (by rwa [transId]), same]

theorem expire_pushes {allowed : Send Message → Prop}
    (onError : ∀ failed connId errorInfo app, ∀ send ∈
      ((program.onError failed connId errorInfo).after
        (startFrame app failed.self)).sends, allowed send)
    (expired : processExpiryTimer program now timerId worker =
      some later) : Pushes allowed worker later := by
  cases expired_of_processExpiryTimer expired with
  | early notDue => exact Pushes.refl worker
  | gone timer due unregistered =>
      exact (Pushes.refl worker).congr ⟨rfl, rfl, rfl⟩ ⟨rfl, rfl, rfl⟩
  | @ended waiting after timer due registered run =>
      have pushes := runMember_pushes program now worker
        waiting.clearWaitingState _ (onError waiting.clearWaitingState
          waiting.waitConnId (toErrorInfo .errTransactionTimeout) worker.app)
      rw [run] at pushes
      have finished := finish_outgoing after
      exact pushes.congr ⟨rfl, rfl, rfl⟩
        ⟨finished.outQueue, finished.packages, finished.bindList⟩
  | @failed waiting fault after left timer due registered run =>
      have pushes := runMember_pushes program now worker
        waiting.clearWaitingState _ (onError waiting.clearWaitingState
          waiting.waitConnId (toErrorInfo .errTransactionTimeout) worker.app)
      rw [run] at pushes
      exact pushes.congr ⟨rfl, rfl, rfl⟩ ⟨rfl, rfl, rfl⟩

end Expire

/-- An internal call only changes the data of the program. -/
theorem eq_of_callInternal {program : Program App Self Message Call}
    {call : Call} {worker later : Worker App Self Message}
    (called : callInternal program call worker = some later) :
    later = { worker with
      app := (program.internal call).after worker.app } := by
  unfold callInternal at called
  split at called
  rename_i result app run
  split at called
  · cases called
    rw [Action.after, run]
  · cases called

end Worker

end Foundation
end Spaceless
