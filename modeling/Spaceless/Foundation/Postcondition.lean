import Spaceless.Foundation.Worker

/-!
# Postconditions of handlers and of worker steps

`Leads` says what the data of a program is like after a handler, however the
handler ended, unless its behaviour is undefined; its rules follow a handler
statement by statement.  The data
changes only inside handlers, so a predicate on it holds after a step when
each handler that the step may run leads to it and the error handlers keep
it.
-/

namespace Spaceless
namespace Foundation

open Logic

namespace Frame

variable {App Self Message α β : Type}

/-- The handler leads from the frame to data with the property, also when it
stops with an exception. -/
def Leads (handler : Handler App Self Message α)
    (frame : Frame App Self Message) (post : App → Prop) : Prop :=
  (handler frame).1 ≠ .error .undefined → post (handler.after frame).app

variable {frame : Frame App Self Message} {post : App → Prop}

namespace Leads

theorem of_after {handler : Handler App Self Message α}
    (holds : post (handler.after frame).app) : Leads handler frame post :=
  fun _ => holds

/-- A statement that reads or checks the frame. -/
theorem bind_check
    {view : Frame App Self Message → Except Fault α}
    {next : α → Handler App Self Message β}
    (stopped : post frame.app)
    (continued : ∀ value, view frame = .ok value →
      Leads (next value) frame post) :
    Leads (Action.check view >>= next) frame post := by
  unfold Leads Action.after
  rw [Action.bind_apply, Action.check_apply]
  cases outcome : view frame with
  | ok value => exact continued value outcome
  | error fault => exact fun _ => stopped

/-- A statement that reads or checks the data. -/
theorem bind_onApp_check
    {view : App → Except Fault α}
    {next : α → Handler App Self Message β}
    (stopped : post frame.app)
    (continued : ∀ value, view frame.app = .ok value →
      Leads (next value) frame post) :
    Leads (onApp (Action.check view) >>= next) frame post := by
  unfold Leads Action.after
  rw [Action.bind_apply, onApp_apply, Action.check_apply]
  cases outcome : view frame.app with
  | ok value => exact continued value outcome
  | error fault => exact fun _ => stopped

theorem bind_read
    {view : Frame App Self Message → α}
    {next : α → Handler App Self Message β}
    (continued : Leads (next (view frame)) frame post) :
    Leads (Action.read view >>= next) frame post :=
  continued

theorem bind_throwIf
    {condition : Prop} [Decidable condition] {fault : Fault}
    {next : Unit → Handler App Self Message β}
    (stopped : post frame.app)
    (continued : ¬condition → Leads (next ()) frame post) :
    Leads (Action.throwIf condition fault >>= next) frame post := by
  unfold Leads Action.after at continued ⊢
  rw [Action.bind_apply]
  by_cases holds : condition
  · simpa [Action.throwIf, holds] using fun _ => stopped
  · simpa [Action.throwIf, holds] using continued holds

/-- A statement that may change the data. -/
theorem bind_onApp
    {action : Action Fault App α}
    {next : α → Handler App Self Message β}
    (stopped : (action frame.app).1 ≠ .error .undefined →
      post (action.after frame.app))
    (continued : ∀ value,
      action frame.app = (.ok value, action.after frame.app) →
      Leads (next value) { frame with app := action.after frame.app }
        post) :
    Leads (onApp action >>= next) frame post := by
  unfold Action.after at stopped continued
  unfold Leads Action.after
  rw [Action.bind_apply, onApp_apply]
  cases outcome : action frame.app with
  | mk result app =>
      rw [outcome] at stopped continued
      cases result with
      | ok value => exact continued value rfl
      | error fault =>
          intro defined
          apply stopped
          rintro ⟨⟩
          exact defined rfl

theorem bind_setSelf {self : Self}
    {next : Unit → Handler App Self Message β}
    (continued : Leads (next ()) { frame with self := self } post) :
    Leads (setSelf self >>= next) frame post :=
  continued

/-- Sending is not seen in the data, nor is waiting. -/
theorem bind_serviceSendProtocol
    {serviceId : Int} {message : Message} {bindTransId : Int}
    {next : Unit → Handler App Self Message β}
    (continued : ∀ sends,
      Leads (next ()) { frame with sends := sends } post) :
    Leads (serviceSendProtocol serviceId message bindTransId >>= next)
      frame post :=
  continued _

theorem serviceWaitNextPhase {serviceId cmd : Int}
    (holds : post frame.app) :
    Leads (serviceWaitNextPhase serviceId cmd) frame post :=
  of_after holds

theorem sendBackProtocol {connId : Int} {message : Message}
    {source : PackageTriggerSource} (holds : post frame.app) :
    Leads (sendBackProtocol connId message source) frame post :=
  of_after holds

end Leads

/-- The handler leaves a part of the frame alone, however it ends. -/
def Preserves {γ : Type} (part : Frame App Self Message → γ)
    (handler : Handler App Self Message α) : Prop :=
  ∀ frame, part (handler.after frame) = part frame

namespace Preserves

variable {γ : Type} {part : Frame App Self Message → γ}

theorem ensures {handler : Handler App Self Message α}
    (preserves : Preserves part handler) (frame : Frame App Self Message) :
    Action.Ensures handler frame
      (fun _ later => part later = part frame)
      (fun _ later => part later = part frame) := by
  have kept := preserves frame
  exact Action.ensures_after.mpr kept

theorem pure (value : α) :
    Preserves part (pure value : Handler App Self Message α) :=
  fun _ => rfl

theorem throw (fault : Fault) :
    Preserves part (throw fault : Handler App Self Message α) :=
  fun _ => rfl

theorem check (view : Frame App Self Message → Except Fault α) :
    Preserves part (Action.check view : Handler App Self Message α) :=
  fun _ => rfl

theorem read (view : Frame App Self Message → α) :
    Preserves part (Action.read view : Handler App Self Message α) :=
  fun _ => rfl

theorem throwIf (condition : Prop) [Decidable condition] (fault : Fault) :
    Preserves part
      (Action.throwIf condition fault : Handler App Self Message Unit) := by
  unfold Action.throwIf
  split
  · exact throw fault
  · exact pure ()

theorem onApp {action : Action Fault App α}
    (kept : ∀ frame : Frame App Self Message,
      part { frame with app := action.after frame.app } = part frame) :
    Preserves part (Frame.onApp action : Handler App Self Message α) :=
  kept

theorem sendProtocol {send : Send Message}
    (kept : ∀ (frame : Frame App Self Message) sends,
      part { frame with sends := sends } = part frame) :
    Preserves part
      (Frame.sendProtocol send : Handler App Self Message Unit) :=
  fun frame => kept frame _

theorem bind {first : Handler App Self Message α}
    {next : α → Handler App Self Message β}
    (before : Preserves part first)
    (after : ∀ value, Preserves part (next value)) :
    Preserves part (first >>= next) := by
  intro frame
  have middle := before frame
  unfold Action.after at middle ⊢
  rw [Action.bind_apply]
  split <;> rename_i outcome <;> rw [outcome] at middle
  · exact (after _ _).trans middle
  · exact middle

end Preserves

end Frame

namespace Worker

variable {App Self Message Call : Type}

@[simp] theorem sendProtocol_app (protocol : Protocol Message)
    (worker : Worker App Self Message) (send : Send Message) :
    (sendProtocol protocol worker send).app = worker.app := by
  unfold sendProtocol
  split <;> rfl

@[simp] theorem sendAll_app (protocol : Protocol Message)
    (worker : Worker App Self Message) (sends : List (Send Message)) :
    (sendAll protocol worker sends).app = worker.app := by
  induction sends generalizing worker with
  | nil => rfl
  | cons send sends inductionHypothesis =>
      exact (inductionHypothesis _).trans (sendProtocol_app ..)

@[simp] theorem foldl_registerTimer_app (now transId : Int)
    (worker : Worker App Self Message) (waits : List Wait) :
    (waits.foldl (registerTimer now transId) worker).app = worker.app := by
  induction waits generalizing worker with
  | nil => rfl
  | cons wait waits inductionHypothesis => exact inductionHypothesis _

/-- The frame that a member function starts with. -/
def startFrame (app : App) (self : Self) : Frame App Self Message where
  app := app
  self := self
  sends := []
  waits := []

@[simp] theorem runMember_result (program : Program App Self Message Call)
    (now : Int) (worker : Worker App Self Message)
    (trans : MultiplyPhaseTransaction Self)
    (handler : Handler App Self Message Unit) :
    (runMember program now worker trans handler).1 =
      (handler (startFrame worker.app trans.self)).1 := rfl

@[simp] theorem runMember_app (program : Program App Self Message Call)
    (now : Int) (worker : Worker App Self Message)
    (trans : MultiplyPhaseTransaction Self)
    (handler : Handler App Self Message Unit) :
    (runMember program now worker trans handler).2.2.app =
      (handler.after (startFrame worker.app trans.self)).app := by
  simp [runMember, startFrame, Action.after]

@[simp] theorem finish_app
    (after : MultiplyPhaseTransaction Self × Worker App Self Message) :
    (finish after).app = after.2.app := by
  unfold finish
  split <;> rfl

@[simp] theorem removePackage_app (packageId : Int)
    (worker : Worker App Self Message) :
    (removePackage packageId worker).app = worker.app := rfl

@[simp] theorem removeBoundTransaction_app (packageId : Int)
    (worker : Worker App Self Message) :
    (removeBoundTransaction packageId worker).app = worker.app := rfl

@[simp] theorem popTimer_app (fired : Timer)
    (worker : Worker App Self Message) :
    (popTimer fired worker).app = worker.app := rfl

section Rules

variable {program : Program App Self Message Call} {post : App → Prop}

/-- Error handlers keep the predicate. -/
def ErrorsKeep (program : Program App Self Message Call)
    (post : App → Prop) : Prop :=
  ∀ trans connId errorInfo frame, post frame.app →
    Frame.Leads (program.onError trans connId errorInfo) frame post

theorem defined_of_ignoreException {result : Except Fault Unit}
    (ignored : ignoreException result = .ok ()) :
    result ≠ .error .undefined := by
  rintro rfl
  cases ignored

/-- What a member function leads to, unless it ends undefined. -/
theorem runMember_post {now : Int} {worker : Worker App Self Message}
    {trans : MultiplyPhaseTransaction Self}
    {handler : Handler App Self Message Unit}
    {result : Except Fault Unit}
    {after : MultiplyPhaseTransaction Self × Worker App Self Message}
    (handled : Frame.Leads handler (startFrame worker.app trans.self) post)
    (run : runMember program now worker trans handler = (result, after))
    (defined : result ≠ .error .undefined) : post after.2.app := by
  unfold Frame.Leads at handled
  rw [← runMember_result program now, ← runMember_app program now, run]
    at handled
  exact handled defined

theorem callTransaction_post
    {now connId : Int} {worker : Worker App Self Message}
    {trans : MultiplyPhaseTransaction Self}
    {handler : Handler App Self Message Unit}
    {after : MultiplyPhaseTransaction Self × Worker App Self Message}
    (errors : ErrorsKeep program post)
    (handled : Frame.Leads handler (startFrame worker.app trans.self) post)
    (called : callTransaction program now connId worker trans handler =
      some after) : post after.2.app := by
  unfold callTransaction at called
  split at called
  · rename_i later run
    cases called
    exact runMember_post handled run (by simp)
  · cases called
  · rename_i thrown failed left run
    have left : post left.app := runMember_post handled run (by simp)
    split at called
    · cases called
    · rename_i errorInfo _
      split at called
      rename_i result later rerun
      split at called
      · rename_i ignored
        cases called
        exact runMember_post (errors failed connId errorInfo _ left) rerun
          (defined_of_ignoreException ignored)
      · cases called

theorem callOnePhase_post
    {connId : Int} {package : Package Message}
    {worker later : Worker App Self Message}
    {handler : Handler App Unit Message Unit}
    (handled : Frame.Leads handler (startFrame worker.app ()) post)
    (called : callOnePhase program connId package worker handler =
      some later) : post later.app := by
  simp only [callOnePhase] at called
  simp only [Frame.Leads, startFrame, Action.after] at handled
  split at called
  · rename_i outcome
    cases called
    rw [sendAll_app]
    exact handled (by simp [outcome])
  · cases called
  · rename_i outcome
    split at called
    · cases called
    · cases called
      rw [sendAll_app, sendAll_app]
      exact handled (by simp [outcome])

/-- The postcondition rule for an expired timer. -/
theorem processExpiryTimer_post
    {now timerId : Int} {worker later : Worker App Self Message}
    (idle : post worker.app) (errors : ErrorsKeep program post)
    (expired : processExpiryTimer program now timerId worker =
      some later) : post later.app := by
  unfold processExpiryTimer at expired
  split at expired
  · cases expired
  · split at expired
    · cases expired
    · split at expired
      · cases expired
        exact idle
      · rename_i timer _ _ _
        obtain ⟨ended, step, rfl⟩ := Option.map_eq_some_iff.mp expired
        rw [popTimer_app]
        unfold transactionTimeout at step
        split at step
        · cases step
          exact idle
        · rename_i waiting _
          have kept := errors waiting.clearWaitingState
            waiting.clearWaitingState.waitConnId
            (toErrorInfo .errTransactionTimeout)
            (startFrame worker.app waiting.clearWaitingState.self) idle
          simp only at step
          split at step
          · rename_i after run
            cases step
            rw [finish_app]
            exact runMember_post kept run (by simp)
          · rename_i fault after left run
            split at step
            · rename_i ignored
              cases step
              exact runMember_post kept run
                (defined_of_ignoreException ignored)
            · cases step

/-- The postcondition rule for an internal call. -/
theorem callInternal_post
    {call : Call} {worker later : Worker App Self Message}
    (called : callInternal program call worker = some later)
    (handled : (program.internal call worker.app).1 ≠ .error .undefined →
      post ((program.internal call).after worker.app)) :
    post later.app := by
  unfold callInternal at called
  split at called
  rename_i result app run
  rw [Action.after, run] at handled
  split at called
  · rename_i ignored
    cases called
    exact handled (defined_of_ignoreException ignored)
  · cases called

end Rules

end Worker

end Foundation
end Spaceless
