import Spaceless.Foundation.Registration

/-!
# What registered transactions rely on

A transaction that waits relies on the data of the program: on an entry whose
id it has taken down, say.  Other transactions change the data meanwhile.
The rules here say when a step keeps the link between the members of each
registered transaction and the data.
-/

namespace Spaceless
namespace Foundation

open Logic

namespace Worker

variable {App Self Message Call : Type}

/-- Every registered transaction is linked to the data. -/
def Linked (linked : Self → App → Prop)
    (worker : Worker App Self Message) : Prop :=
  ∀ (transId : Int) trans, worker.transList[transId]? = some trans →
    linked trans.self worker.app

/-- The registered transactions are linked to the given data, but for one
that is not looked at. -/
def OthersLinked (linked : Self → App → Prop)
    (worker : Worker App Self Message) (own : Int) (app : App) : Prop :=
  ∀ (transId : Int) trans, transId ≠ own →
    worker.transList[transId]? = some trans → linked trans.self app

/-- The member function keeps the links of the other transactions, and its
own transaction is linked if it waits; so does the error handler after an
exception. -/
def KeepsLinks (linked : Self → App → Prop)
    (program : Program App Self Message Call)
    (worker : Worker App Self Message) (connId : Int)
    (trans : MultiplyPhaseTransaction Self)
    (handler : Handler App Self Message Unit) : Prop :=
  Action.Ensures handler (startFrame worker.app trans.self)
    (fun _ frame => worker.OthersLinked linked trans.id frame.app ∧
      (frame.waits ≠ [] → linked frame.self frame.app))
    (fun fault frame => fault ≠ .undefined →
      ∀ failed : MultiplyPhaseTransaction Self, failed.self = frame.self →
      ∀ errorInfo last,
        (program.onError failed connId errorInfo).after
          (startFrame frame.app frame.self) = last →
        worker.OthersLinked linked trans.id last.app ∧
          (frame.waits = [] ∧ last.waits = [] ∨
            linked last.self last.app))

section

variable {linked : Self → App → Prop}
  {program : Program App Self Message Call}
  {worker later : Worker App Self Message}

/-- What a member function and its error handler leave behind. -/
theorem finish_linked
    {after : MultiplyPhaseTransaction Self × Worker App Self Message}
    {own : Int} (transId : after.1.id = own)
    (sameList : after.2.transList = worker.transList)
    (others : worker.OthersLinked linked own after.2.app)
    (waits : after.1.isWaiting = true → linked after.1.self after.2.app) :
    (finish after).Linked linked := by
  subst transId
  intro transId trans found
  rw [finish_app]
  by_cases same : after.1.id = transId
  · subst same
    rw [finish_transList_self] at found
    split at found
    · rename_i waiting
      cases found
      exact waits waiting
    · cases found
  · rw [finish_transList_of_ne same, sameList] at found
    exact others transId trans (Ne.symm same) found

theorem callTransaction_linked {now connId : Int}
    {start : Worker App Self Message}
    {trans : MultiplyPhaseTransaction Self}
    {handler : Handler App Self Message Unit}
    {after : MultiplyPhaseTransaction Self × Worker App Self Message}
    (sameApp : start.app = worker.app)
    (startList : start.transList = worker.transList)
    (idle : trans.isWaiting = false)
    (keeps : KeepsLinks linked program worker connId trans handler)
    (called : callTransaction program now connId start trans handler =
      some after) : (finish after).Linked linked := by
  have sameList := (callTransaction_transList called).trans startList
  have transId := callTransaction_id called
  unfold KeepsLinks at keeps
  rw [← sameApp] at keeps
  rcases callTransaction_cases called with
    run | ⟨thrown, errorInfo, failed, result, run, rerun⟩
  · obtain ⟨ran, app, self, waits⟩ := runMember_spec run idle
    obtain ⟨others, waiting⟩ := Action.Ensures.of_ok keeps ran
    rw [← app] at others
    refine finish_linked transId sameList others fun isWaiting => ?_
    rw [self, app]
    exact waiting (waits.mp isWaiting)
  · obtain ⟨ran, app, self, waits⟩ := runMember_spec run idle
    have handled := Action.Ensures.of_error keeps ran (by simp) failed.1 self
      errorInfo _ rfl
    rw [← app, ← self] at handled
    obtain ⟨others, ended⟩ := handled
    have appAfter := runMember_app program now failed.2 failed.1
      (program.onError failed.1 connId errorInfo)
    have selfAfter := runMember_self program now failed.2 failed.1
      (program.onError failed.1 connId errorInfo)
    rw [rerun] at appAfter selfAfter
    rw [← appAfter] at others
    refine finish_linked transId sameList others fun isWaiting => ?_
    rcases ended with ⟨noWaits, noMore⟩ | still
    · have stopped : failed.1.isWaiting = false := by
        simpa [noWaits] using waits
      have waitsAfter := (runMember_spec rerun stopped).2.2.2.mp isWaiting
      exact absurd noMore waitsAfter
    · rw [appAfter, selfAfter]
      exact still

/-- The rule for a received package. -/
theorem Linked.receive {now connId serviceId : Int}
    {package : Package Message} (before : worker.Linked linked)
    (onePhase : worker.waitingTransaction package = none → ∀ handler,
      program.findTransaction package.command = some (.onePhase handler) →
      ∀ (transId : Int) trans, worker.transList[transId]? = some trans →
        linked trans.self ((handler now connId package).after
          (startFrame worker.app ())).app)
    (onInit : worker.waitingTransaction package = none → ∀ factory trans,
      program.findTransaction package.command =
        some (.multiplyPhase factory) →
      trans.self = factory → trans.id = worker.nextTransId →
      KeepsLinks linked program worker connId trans
        (program.onInit trans connId package))
    (onActive : ∀ waiting,
      worker.waitingTransaction package = some waiting →
      waiting.fits connId serviceId package.command = true →
      KeepsLinks linked program worker connId waiting.clearWaitingState
        (program.onActive waiting.clearWaitingState connId package))
    (received : receive program now connId serviceId package worker =
      some later) : later.Linked linked := by
  cases received_of_receive received with
  | unknown starts unregistered => exact before
  | @onePhase handler called starts registered call =>
      have sameList := callOnePhase_transList call
      intro transId trans found
      change called.transList[transId]? = _ at found
      rw [sameList] at found
      have handled := onePhase starts handler registered transId trans found
      change linked trans.self called.app
      refine callOnePhase_post ?_ call
      exact Frame.Leads.of_after handled
  | @multiplyPhase factory after starts registered call =>
      have done : (finish after).Linked linked := by
        refine callTransaction_linked ?_ ?_ ?_
          (onInit starts factory _ registered rfl rfl) call <;> rfl
      exact done
  | foreign answers mismatch => exact before
  | @active waiting after answers fits call =>
      have done : (finish after).Linked linked := by
        refine callTransaction_linked ?_ ?_ ?_
          (onActive waiting answers fits) call <;> rfl
      exact done

/-- The rule for an expired timer. -/
theorem Linked.expire {now timerId : Int} (before : worker.Linked linked)
    (onError : ∀ timer waiting, worker.dueTimer now timerId = some timer →
      worker.transList[timer.transId]? = some waiting →
      Action.Ensures
        (program.onError waiting.clearWaitingState waiting.waitConnId
          (toErrorInfo .errTransactionTimeout))
        (startFrame worker.app waiting.self)
        (fun _ frame => worker.OthersLinked linked waiting.id frame.app ∧
          (frame.waits ≠ [] → linked frame.self frame.app))
        (fun _ frame => worker.OthersLinked linked waiting.id frame.app ∧
          linked frame.self frame.app))
    (expired : processExpiryTimer program now timerId worker =
      some later) : later.Linked linked := by
  cases expired_of_processExpiryTimer expired with
  | early notDue => exact before
  | gone timer due unregistered => exact before
  | @ended waiting after timer due registered run =>
      obtain ⟨transId, sameList, -⟩ := runMember_keeps run
      obtain ⟨ran, app, self, waits⟩ := runMember_spec run rfl
      obtain ⟨others, still⟩ := (onError timer waiting due registered).of_ok
        ran
      have finished : (finish after).Linked linked := by
        refine finish_linked transId sameList ?_ fun isWaiting => ?_
        · rw [app]
          exact others
        · rw [self, app]
          exact still (waits.mp isWaiting)
      exact finished
  | @failed waiting fault after left timer due registered run =>
      obtain ⟨transId, sameList, -⟩ := runMember_keeps run
      obtain ⟨ran, app, self, waits⟩ := runMember_spec run rfl
      obtain ⟨others, still⟩ := (onError timer waiting due
        registered).of_error ran
      change after.id = waiting.id at transId
      change left.transList = worker.transList at sameList
      intro other trans found
      change (left.transList.insert after.id after)[other]? = _ at found
      rw [Table.lookup_insert, sameList] at found
      change linked trans.self left.app
      rw [show left.app = _ from app]
      split at found
      · cases found
        rw [show after.self = _ from self]
        exact still
      · rename_i different
        exact others other trans (by omega) found

end

end Worker

end Foundation
end Spaceless
