import Spaceless.Foundation.Outcome

/-!
# Ids of transactions and packages

Ids of transactions are handed out in increasing order, and a transaction is
registered under its own id.  A binding leads from a package id that was
handed out to the id of a transaction that was.
-/

namespace Spaceless
namespace Foundation

open Logic

namespace Worker

variable {App Self Message Call : Type}

/-! ## The counter of transaction ids -/

@[simp] theorem finish_nextTransId
    (after : MultiplyPhaseTransaction Self × Worker App Self Message) :
    (finish after).nextTransId = after.2.nextTransId := by
  unfold finish
  split <;> rfl

section

variable {program : Program App Self Message Call}
  {now connId serviceId : Int} {package : Package Message}
  {worker later : Worker App Self Message}

theorem callOnePhase_nextTransId
    {handler : Handler App Unit Message Unit}
    (called : callOnePhase program connId package worker handler =
      some later) : later.nextTransId = worker.nextTransId := by
  simp only [callOnePhase] at called
  split at called
  · cases called
    exact sendAll_nextTransId ..
  · cases called
  · split at called
    · cases called
    · cases called
      rw [sendAll_nextTransId, sendAll_nextTransId]

variable (program worker package) in
/-- The package starts a multiply-phase transaction. -/
structure Starts : Prop where
  unanswered : worker.waitingTransaction package = none
  registered : ∃ factory,
    program.findTransaction package.command = some (.multiplyPhase factory)

/-- A step hands out the id of the transaction that it starts. -/
theorem receive_nextTransId
    (received : receive program now connId serviceId package worker =
      some later) :
    (Starts program package worker ∧
        later.nextTransId = worker.nextTransId + 1) ∨
      (¬Starts program package worker ∧
        later.nextTransId = worker.nextTransId) := by
  have answered {waiting : MultiplyPhaseTransaction Self}
      (answers : worker.waitingTransaction package = some waiting) :
      ¬Starts program package worker := by
    intro starts
    rw [starts.unanswered] at answers
    cases answers
  cases received_of_receive received with
  | unknown starts unregistered =>
      refine Or.inr ⟨?_, rfl⟩
      rintro ⟨-, factory, registered⟩
      rw [unregistered] at registered
      cases registered
  | onePhase starts registered call =>
      have counted := callOnePhase_nextTransId call
      refine Or.inr ⟨?_, counted⟩
      rintro ⟨-, factory, other⟩
      rw [registered] at other
      cases other
  | multiplyPhase starts registered call =>
      have counted := callTransaction_nextTransId call
      exact Or.inl ⟨⟨starts, _, registered⟩,
        (finish_nextTransId _).trans counted⟩
  | foreign answers mismatch => exact Or.inr ⟨answered answers, rfl⟩
  | active answers fits call =>
      have counted := callTransaction_nextTransId call
      exact Or.inr ⟨answered answers, (finish_nextTransId _).trans counted⟩

theorem expire_nextTransId {timerId : Int}
    (expired : processExpiryTimer program now timerId worker = some later) :
    later.nextTransId = worker.nextTransId := by
  cases expired_of_processExpiryTimer expired with
  | early notDue => rfl
  | gone timer due unregistered => rfl
  | ended timer due registered run =>
      exact (finish_nextTransId _).trans (runMember_keeps run).2.2
  | failed timer due registered run => exact (runMember_keeps run).2.2

theorem step_nextTransId_le {event : Event Message Call}
    (stepped : step program worker event = some later) :
    worker.nextTransId ≤ later.nextTransId := by
  cases event with
  | receive now connId serviceId package =>
      rcases receive_nextTransId stepped with ⟨-, counted⟩ | ⟨-, counted⟩ <;>
        omega
  | internal call =>
      have called : callInternal program call worker = some later := stepped
      refine Int.le_of_eq ?_
      rw [eq_of_callInternal called]
  | expire now timerId => exact Int.le_of_eq (expire_nextTransId stepped).symm

/-! ## Registered transactions -/

variable (worker) in
/-- Transactions are registered under their own ids, which were handed out. -/
def TransIds : Prop :=
  ∀ transId trans, worker.transList[transId]? = some trans →
    trans.id = transId ∧ transId < worker.nextTransId

theorem TransIds.insert (ids : worker.TransIds)
    {trans : MultiplyPhaseTransaction Self}
    (known : trans.id < worker.nextTransId) :
    { worker with
      transList := worker.transList.insert trans.id trans }.TransIds := by
  intro transId entry found
  by_cases own : trans.id = transId
  · subst own
    rw [Table.lookup_insert_self] at found
    cases found
    exact ⟨rfl, known⟩
  · rw [Table.lookup_insert_of_ne _ _ own] at found
    exact ids transId entry found

/-- Finishing a member function keeps the ids. -/
theorem TransIds.finish
    {after : MultiplyPhaseTransaction Self × Worker App Self Message}
    (ids : after.2.TransIds) (known : after.1.id < after.2.nextTransId) :
    (finish after).TransIds := by
  unfold Worker.finish
  split
  · exact ids.insert known
  · exact fun transId trans found =>
      ids transId trans (Table.lookup_of_lookup_erase found)

/-- Only the list and the counter matter. -/
theorem TransIds.congr (ids : worker.TransIds)
    (sameList : later.transList = worker.transList)
    (grows : worker.nextTransId ≤ later.nextTransId) : later.TransIds := by
  intro transId trans found
  rw [sameList] at found
  have known := ids transId trans found
  exact ⟨known.1, Int.lt_of_lt_of_le known.2 grows⟩

theorem TransIds.waiting (ids : worker.TransIds)
    {waiting : MultiplyPhaseTransaction Self}
    (answers : worker.waitingTransaction package = some waiting) :
    ∃ transId, worker.bindList[package.triggerPackageId]? = some transId ∧
      worker.transList[transId]? = some waiting ∧ waiting.id = transId ∧
      transId < worker.nextTransId := by
  unfold waitingTransaction findBoundTransaction at answers
  split at answers
  · split at answers
    · cases answers
    · rename_i transId bound
      have known := ids transId waiting answers
      exact ⟨transId, bound, answers, known.1, known.2⟩
  · cases answers

theorem TransIds.receive (ids : worker.TransIds)
    (received : receive program now connId serviceId package worker =
      some later) : later.TransIds := by
  cases received_of_receive received with
  | unknown starts unregistered => exact ids
  | @onePhase handler called starts registered call =>
      have sameList := callOnePhase_transList call
      have counted := callOnePhase_nextTransId call
      have done : called.TransIds := ids.congr sameList (Int.le_of_eq
        counted.symm)
      exact done
  | @multiplyPhase factory after starts registered call =>
      obtain ⟨own, sameList, counted⟩ := callTransaction_keeps call
      change after.2.nextTransId = worker.nextTransId + 1 at counted
      change after.1.id = worker.nextTransId at own
      have done : after.2.TransIds := ids.congr sameList (by omega)
      exact done.finish (by omega)
  | foreign answers mismatch => exact ids
  | @active waiting after answers fits call =>
      obtain ⟨transId, -, -, same, known⟩ := ids.waiting answers
      obtain ⟨own, sameList, counted⟩ := callTransaction_keeps call
      change after.2.nextTransId = worker.nextTransId at counted
      change after.1.id = waiting.id at own
      have done : after.2.TransIds := ids.congr sameList (by omega)
      exact done.finish (by omega)

theorem TransIds.expire {timerId : Int} (ids : worker.TransIds)
    (expired : processExpiryTimer program now timerId worker =
      some later) : later.TransIds := by
  cases expired_of_processExpiryTimer expired with
  | early notDue => exact ids
  | gone timer due unregistered => exact ids
  | @ended waiting after timer due registered run =>
      obtain ⟨same, known⟩ := ids timer.transId waiting registered
      obtain ⟨own, sameList, counted⟩ := runMember_keeps run
      change after.1.id = waiting.id at own
      have done : after.2.TransIds := ids.congr sameList (by omega)
      exact done.finish (by omega)
  | @failed waiting fault after left timer due registered run =>
      obtain ⟨same, known⟩ := ids timer.transId waiting registered
      obtain ⟨own, sameList, counted⟩ := runMember_keeps run
      change after.id = waiting.id at own
      change left.nextTransId = worker.nextTransId at counted
      have done : left.TransIds := ids.congr sameList (by omega)
      exact done.insert (by omega)

theorem TransIds.step {event : Event Message Call} (ids : worker.TransIds)
    (stepped : step program worker event = some later) :
    later.TransIds := by
  cases event with
  | receive now connId serviceId package => exact ids.receive stepped
  | internal call =>
      have called : callInternal program call worker = some later := stepped
      rw [eq_of_callInternal called]
      exact ids
  | expire now timerId => exact ids.expire stepped

/-! ## Transactions that wait once -/

variable (program) in
/-- The members that follow `on_init` never wait, and `on_error` returns. -/
structure WaitsOnce : Prop where
  onActive : ∀ trans connId package app,
    Action.Ensures (program.onActive trans connId package)
      (startFrame app trans.self)
      (fun _ frame => frame.waits = [])
      (fun fault frame => fault ≠ .undefined → frame.waits = [])
  onError : ∀ trans connId errorInfo frame,
    (program.onError trans connId errorInfo frame).1 = .ok () ∧
      ((program.onError trans connId errorInfo).after frame).waits =
        frame.waits

/-- A call of a member that does not wait. -/
theorem WaitsOnce.callTransaction_idle (once : WaitsOnce program)
    {trans : MultiplyPhaseTransaction Self}
    {handler : Handler App Self Message Unit}
    {after : MultiplyPhaseTransaction Self × Worker App Self Message}
    (idle : trans.isWaiting = false)
    (quiet : Action.Ensures handler (startFrame worker.app trans.self)
      (fun _ frame => frame.waits = [])
      (fun fault frame => fault ≠ .undefined → frame.waits = []))
    (called : callTransaction program now connId worker trans handler =
      some after) : after.1.isWaiting = false := by
  rcases callTransaction_cases called with
    run | ⟨thrown, errorInfo, failed, result, run, rerun⟩
  · obtain ⟨ran, -, -, waits⟩ := runMember_spec run idle
    have noWaits := quiet.of_ok ran
    simpa [noWaits] using waits
  · obtain ⟨ran, -, -, waits⟩ := runMember_spec run idle
    have noWaits := quiet.of_error ran (by simp)
    have stopped : failed.1.isWaiting = false := by
      simpa [noWaits] using waits
    obtain ⟨-, -, -, waitsError⟩ := runMember_spec rerun stopped
    rw [(once.onError ..).2] at waitsError
    simpa [startFrame] using waitsError

theorem lookup_of_finish_idle
    {after : MultiplyPhaseTransaction Self × Worker App Self Message}
    (idle : after.1.isWaiting = false) {transId : Int}
    {trans : MultiplyPhaseTransaction Self}
    (found : (finish after).transList[transId]? = some trans) :
    after.2.transList[transId]? = some trans := by
  rw [finish, if_neg (by simp [idle])] at found
  exact Table.lookup_of_lookup_erase found

/-- A registered transaction was registered before the step, or the step
started it. -/
theorem WaitsOnce.registered_of_receive (once : WaitsOnce program)
    (received : receive program now connId serviceId package worker =
      some later) {transId : Int} {trans : MultiplyPhaseTransaction Self}
    (found : later.transList[transId]? = some trans) :
    worker.transList[transId]? = some trans ∨
      transId = worker.nextTransId ∧ Starts program package worker := by
  cases received_of_receive received with
  | unknown starts unregistered => exact Or.inl found
  | @onePhase handler called starts registered call =>
      have sameList := callOnePhase_transList call
      change called.transList[transId]? = _ at found
      rw [sameList] at found
      exact Or.inl found
  | @multiplyPhase factory after starts registered call =>
      obtain ⟨own, sameList, -⟩ := callTransaction_keeps call
      change after.1.id = worker.nextTransId at own
      change (finish after).transList[transId]? = _ at found
      by_cases new : transId = worker.nextTransId
      · exact Or.inr ⟨new, starts, factory, registered⟩
      · rw [finish_transList_of_ne (by omega), sameList] at found
        exact Or.inl found
  | foreign answers mismatch => exact Or.inl found
  | @active waiting after answers fits call =>
      have sameList := callTransaction_transList call
      have idle := once.callTransaction_idle rfl (once.onActive ..) call
      change (finish after).transList[transId]? = _ at found
      have kept := lookup_of_finish_idle idle found
      rw [sameList] at kept
      exact Or.inl kept

theorem WaitsOnce.registered_of_expire (once : WaitsOnce program)
    {timerId : Int}
    (expired : processExpiryTimer program now timerId worker = some later)
    {transId : Int} {trans : MultiplyPhaseTransaction Self}
    (found : later.transList[transId]? = some trans) :
    worker.transList[transId]? = some trans := by
  cases expired_of_processExpiryTimer expired with
  | early notDue => exact found
  | gone timer due unregistered => exact found
  | @ended waiting after timer due registered run =>
      have sameList := (runMember_keeps run).2.1
      have waits := (runMember_spec run rfl).2.2.2
      rw [(once.onError ..).2] at waits
      change (finish after).transList[transId]? = _ at found
      have kept := lookup_of_finish_idle (by simpa [startFrame] using waits)
        found
      rw [sameList] at kept
      exact kept
  | @failed waiting fault after left timer due registered run =>
      have ran := (runMember_spec run rfl).1
      have returns := (once.onError waiting.clearWaitingState
        waiting.waitConnId (toErrorInfo .errTransactionTimeout)
        (startFrame worker.app waiting.clearWaitingState.self)).1
      rw [ran] at returns
      cases returns

/-! ## Bindings -/

variable (worker) in
/-- Bindings lead from package ids to transaction ids that were handed
out. -/
def Bindings : Prop :=
  ∀ packageId transId : Int, worker.bindList[packageId]? = some transId →
    packageId < worker.packages.nextId ∧ transId < worker.nextTransId

theorem Bindings.pushes {allowed : Send Message → Prop}
    (bindings : worker.Bindings) (pushes : Pushes allowed worker later)
    (grows : worker.nextTransId ≤ later.nextTransId)
    (known : ∀ send, allowed send → send.bindTransId ≠ 0 →
      send.bindTransId < later.nextTransId) : later.Bindings := by
  intro packageId transId found
  have counted := pushes.counted
  rcases pushes.bound packageId transId found with
    old | ⟨range, send, permitted, same, valid⟩
  · have before := bindings packageId transId old
    omega
  · have below := known send permitted (same ▸ valid)
    omega

end

end Worker

end Foundation
end Spaceless
