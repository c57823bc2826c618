import Spaceless.Foundation.Worker

/-!
# Foreign packages and the binding of a waiting transaction

`trigger_transaction` finds the waiting transaction of a package through the
binding of its `trigger_package_id`, rejects a package that does not fit the
waiting info, and then removes the binding in both cases.  The transaction
itself survives a foreign package, but no later response finds it.
-/

namespace Spaceless
namespace Foundation

open Logic

namespace Worker

variable {App Self Message Call : Type}

/-- The transaction waits for the response to the package. -/
structure BoundWaiting (worker : Worker App Self Message)
    (boundId transId : Int) (trans : MultiplyPhaseTransaction Self) :
    Prop where
  valid : boundId ≠ 0
  bound : worker.bindList[boundId]? = some transId
  registered : worker.transList[transId]? = some trans
  waiting : trans.isWaiting = true

/-- The package is received and answers to the bound one, but its sender or
its command does not match the waiting info. -/
structure ForeignPackage (worker : Worker App Self Message)
    (boundId : Int) (trans : MultiplyPhaseTransaction Self)
    (connId serviceId packageId : Int) (package : Package Message) :
    Prop where
  received : worker.packages.packageList[packageId]? = some package
  answers : package.triggerPackageId = boundId
  mismatch : trans.fits connId serviceId package.command = false

/-- Processing the package leaves the transaction, its waiting info and its
binding as they were. -/
def KeepsWaiting (program : Program App Self Message Call)
    (worker : Worker App Self Message) (boundId transId : Int)
    (now connId serviceId packageId : Int) : Prop :=
  ∃ after,
    triggerTransaction program now connId serviceId packageId worker =
      some after ∧
    after.transList[transId]? = worker.transList[transId]? ∧
    after.bindList[boundId]? = worker.bindList[boundId]?

theorem waitingTransaction_of_bound
    {worker : Worker App Self Message} {boundId transId : Int}
    {trans : MultiplyPhaseTransaction Self}
    (waiting : worker.BoundWaiting boundId transId trans)
    {package : Package Message}
    (answers : package.triggerPackageId = boundId) :
    worker.waitingTransaction package = some trans := by
  have valid := waiting.valid
  simp [waitingTransaction, findBoundTransaction, answers, valid,
    waiting.bound, waiting.registered]

theorem waitingTransaction_of_unbound
    {worker : Worker App Self Message} {boundId : Int}
    (unbound : worker.bindList[boundId]? = none)
    {package : Package Message}
    (answers : package.triggerPackageId = boundId) :
    worker.waitingTransaction package = none := by
  simp [waitingTransaction, findBoundTransaction, answers, unbound]

/-- The exact effect of a foreign package: it is removed, and so is the
binding it names. -/
theorem triggerTransaction_foreign
    (program : Program App Self Message Call)
    {worker : Worker App Self Message} {boundId transId : Int}
    {trans : MultiplyPhaseTransaction Self}
    (waiting : worker.BoundWaiting boundId transId trans)
    {connId serviceId packageId : Int} {package : Package Message}
    (foreign : worker.ForeignPackage boundId trans
      connId serviceId packageId package) (now : Int) :
    triggerTransaction program now connId serviceId packageId worker =
      some (removePackage packageId
        (removeBoundTransaction boundId worker)) := by
  have found := waitingTransaction_of_bound waiting foreign.answers
  simp [triggerTransaction, foreign.received, found, activeTransaction,
    foreign.mismatch, foreign.answers]

/-- Every foreign package ends the binding, and the responses that come after
it no longer reach the transaction. -/
theorem not_keepsWaiting
    (program : Program App Self Message Call)
    {worker : Worker App Self Message} {boundId transId : Int}
    {trans : MultiplyPhaseTransaction Self}
    (waiting : worker.BoundWaiting boundId transId trans)
    {connId serviceId packageId : Int} {package : Package Message}
    (foreign : worker.ForeignPackage boundId trans
      connId serviceId packageId package) (now : Int) :
    ¬worker.KeepsWaiting program boundId transId
        now connId serviceId packageId ∧
      ∀ after,
        triggerTransaction program now connId serviceId packageId worker =
          some after →
        after.transList[transId]? = some trans ∧
          ∀ response : Package Message,
            response.triggerPackageId = boundId →
              after.waitingTransaction response = none := by
  have effect := triggerTransaction_foreign program waiting foreign now
  have unbound : (removePackage packageId
      (removeBoundTransaction boundId worker)).bindList[boundId]? = none := by
    simp [removePackage, removeBoundTransaction]
  constructor
  · rintro ⟨after, processed, -, kept⟩
    rw [effect] at processed
    cases processed
    rw [unbound, waiting.bound] at kept
    cases kept
  · intro after processed
    rw [effect] at processed
    cases processed
    exact ⟨waiting.registered, fun response answers =>
      waitingTransaction_of_unbound unbound answers⟩

/-! ## A transaction that waits on service 3 for command 1030 -/

/-- A program without commands. -/
def idleProgram : Program Unit Unit Unit Unit where
  protocol :=
    { command := fun _ => 0
      messageSize := fun _ => 0
      rspError := fun _ => ()
      isRspError := fun _ => true
      responseCommand := fun command => command + 1 }
  findTransaction := fun _ => none
  onInit := fun _ _ _ => pure ()
  onActive := fun _ _ _ => pure ()
  onError := fun _ _ _ => pure ()
  internal := fun _ => pure ()

def waitingTrans : MultiplyPhaseTransaction Unit :=
  (MultiplyPhaseTransaction.init 1 () 5
    { command := 1027, packageId := 9 }).waitNextPhase
      { connId := 0, cmd := 1030, timeout := 1, serviceId := 3 }

/-- A package of another connection that names the bound package 2. -/
def foreignPackage : Package Unit where
  command := 1030
  selfPackageId := 1
  triggerPackageId := 2
  content := some ()

def waitingWorker : Worker Unit Unit Unit :=
  { (Worker.init () : Worker Unit Unit Unit) with
    packages :=
      { packageList := (∅ : Table Int (Package Unit)).insert 4 foreignPackage
        nextId := 5 }
    transList := (∅ : Table Int (MultiplyPhaseTransaction Unit)).insert 1
      waitingTrans
    bindList := (∅ : Table Int Int).insert 2 1 }

theorem waitingWorker_waiting :
    waitingWorker.BoundWaiting 2 1 waitingTrans :=
  ⟨by decide, by decide, by decide, by decide⟩

theorem waitingWorker_foreign :
    waitingWorker.ForeignPackage 2 waitingTrans 6 0 4 foreignPackage :=
  ⟨by decide, by decide, by decide⟩

theorem not_keepsWaiting_waitingWorker :
    ¬waitingWorker.KeepsWaiting idleProgram 2 1 0 6 0 4 :=
  (not_keepsWaiting idleProgram waitingWorker_waiting waitingWorker_foreign
    0).1

/-- A foreign package does not always leave the waiting transaction bound. -/
theorem not_keepsWaiting_always :
    ¬∀ (worker : Worker Unit Unit Unit) (boundId transId : Int)
        (trans : MultiplyPhaseTransaction Unit)
        (connId serviceId packageId : Int) (package : Package Unit)
        (now : Int),
      worker.BoundWaiting boundId transId trans →
      worker.ForeignPackage boundId trans
        connId serviceId packageId package →
      worker.KeepsWaiting idleProgram boundId transId
        now connId serviceId packageId := by
  intro always
  obtain ⟨after, processed, -, kept⟩ := always waitingWorker 2 1 waitingTrans
    6 0 4 foreignPackage 0 waitingWorker_waiting waitingWorker_foreign
  have unbound : after.bindList[(2 : Int)]? = none := by
    rw [triggerTransaction_foreign idleProgram waitingWorker_waiting
      waitingWorker_foreign 0] at processed
    cases processed
    decide
  rw [unbound, waitingWorker_waiting.bound] at kept
  cases kept

end Worker

end Foundation
end Spaceless
