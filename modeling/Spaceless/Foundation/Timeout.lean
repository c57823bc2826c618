import Spaceless.Foundation.Turn

/-!
# Timers of waiting transactions

A transaction that is registered waits, and a timer that names it is pending,
as long as `on_error` does not throw at a timeout: the action of a timer has
no error handler of its own, and an exception leaves the transaction behind
without a timer.
-/

namespace Spaceless
namespace Foundation

open Logic

namespace Worker

variable {App Self Message Call : Type}

section

variable (worker : Worker App Self Message)

/-- Every registered transaction waits, and has a pending timer. -/
def Pending : Prop :=
  ∀ transId trans, worker.transList[transId]? = some trans →
    trans.isWaiting = true ∧
      ∃ timer ∈ worker.timers, timer.transId = transId

/-- Timer ids are handed out in increasing order. -/
def TimerIds : Prop :=
  ∀ timer ∈ worker.timers, timer.timerId < worker.nextTimerId

/-- When a timer fires for a registered transaction, `on_error` returns, or
has called `wait_next_phase` before it throws. -/
def TimeoutEnds (program : Program App Self Message Call) :
    Event Message Call → Prop
  | .expire now timerId => ∀ timer,
      worker.dueTimer now timerId = some timer →
      ∀ waiting, worker.transList[timer.transId]? = some waiting →
      (timeoutOutcome program worker.app waiting).1 = .ok () ∨
        (timeoutOutcome program worker.app waiting).2.waits ≠ []
  | _ => True

end

/-! ## The timers of a step -/

theorem mem_newTimers {now transId timerId : Int} {waits : List Wait}
    {timer : Timer} (new : timer ∈ newTimers now transId timerId waits) :
    timer.transId = transId ∧ timerId ≤ timer.timerId ∧
      timer.timerId < timerId + waits.length := by
  induction waits generalizing timerId with
  | nil => cases new
  | cons wait waits inductionHypothesis =>
      rw [List.length_cons]
      rcases List.mem_cons.mp new with rfl | later
      · exact ⟨rfl, Int.le_refl _, by dsimp only; omega⟩
      · obtain ⟨same, above, below⟩ := inductionHypothesis later
        exact ⟨same, by omega, by omega⟩

/-- `popTimer` removes the timer that fired, or an earlier one. -/
theorem popTimer_timers (fired : Timer) (worker : Worker App Self Message) :
    ∃ popped, (popTimer fired worker).timers = worker.timers.erase popped ∧
      (popped = fired ∨
        popped ∈ worker.timers ∧ popped.expiryTime < fired.expiryTime) := by
  unfold popTimer
  dsimp only
  refine ⟨_, rfl, ?_⟩
  cases earlier : worker.timers.find? fun timer =>
      timer.expiryTime < fired.expiryTime &&
        worker.timers.all fun other =>
          timer.expiryTime ≤ other.expiryTime with
  | none => exact Or.inl rfl
  | some timer =>
      have before := List.find?_some earlier
      rw [Bool.and_eq_true] at before
      exact Or.inr ⟨List.mem_of_find?_eq_some earlier,
        of_decide_eq_true before.1⟩

section Kinds

variable {program : Program App Self Message Call}
  {worker : Worker App Self Message} {event : Event Message Call}
  {turn : Turn Self Message}

/-- The transaction of a turn does not wait when its members start. -/
theorem Turns.idle_start (turns : Turns program worker event turn)
    {trans : MultiplyPhaseTransaction Self} (own : turn.trans = some trans) :
    trans.isWaiting = false := by
  cases turns <;> cases own <;> rfl

/-- Without a transaction, none is kept. -/
theorem Turns.of_none (turns : Turns program worker event turn)
    (none : turn.trans = none) : turn.keeps = false := by
  cases turns <;> first | rfl | cases none

/-- A transaction that has its turn is new, or was registered. -/
theorem Turns.trans_cases (turns : Turns program worker event turn)
    (ids : worker.TransIds) {trans : MultiplyPhaseTransaction Self}
    (own : turn.trans = some trans) :
    trans.id = worker.nextTransId ∨
      ∃ waiting, worker.transList[trans.id]? = some waiting ∧
        trans = waiting.clearWaitingState := by
  cases turns with
  | idle => cases own
  | onePhase starts registered => cases own
  | starts starts registered =>
      cases own
      exact Or.inl rfl
  | @active now connId serviceId package waiting answers fits =>
      cases own
      obtain ⟨transId, -, registered, rfl, -⟩ := ids.waiting answers
      exact Or.inr ⟨waiting, registered, rfl⟩
  | @timeout now timerId timer waiting due registered =>
      cases own
      have same := (ids _ _ registered).1
      rw [← same] at registered
      exact Or.inr ⟨waiting, registered, rfl⟩

/-- A transaction that waits in its turn is kept. -/
theorem Turns.keeps_of_waits (turns : Turns program worker event turn)
    (waited : turn.waits ≠ []) : turn.keeps = true := by
  cases turns with
  | idle => exact absurd rfl waited
  | onePhase starts registered => exact absurd rfl waited
  | starts starts registered => simpa [memberTurn] using waited
  | active answers fits => simpa [memberTurn] using waited
  | timeout due registered =>
      simp only [timeoutTurn] at waited ⊢
      split
      · simpa using waited
      · rfl

/-- A transaction that is kept without a wait has timed out. -/
theorem Turns.of_kept_idle (turns : Turns program worker event turn)
    (keeps : turn.keeps = true) (idle : turn.waits = []) :
    ∃ timer waiting, worker.firedTimer event = some timer ∧
      worker.transList[timer.transId]? = some waiting ∧
      turn = timeoutTurn program worker.app waiting := by
  cases turns with
  | idle => cases keeps
  | onePhase starts registered => cases keeps
  | starts starts registered =>
      simp only [memberTurn] at keeps idle
      simp [idle] at keeps
  | active answers fits =>
      simp only [memberTurn] at keeps idle
      simp [idle] at keeps
  | timeout due registered => exact ⟨_, _, due, registered, rfl⟩

end Kinds

section Step

variable {program : Program App Self Message Call}
  {worker later : Worker App Self Message} {event : Event Message Call}

variable (program) in
/-- The turn of a timer that fires. -/
theorem turn_of_fired {timer : Timer}
    (fired : worker.firedTimer event = some timer) :
    (worker.transList[timer.transId]? = none ∧
        worker.turn program event = .idle) ∨
      ∃ waiting, worker.transList[timer.transId]? = some waiting ∧
        worker.turn program event =
          timeoutTurn program worker.app waiting := by
  cases event with
  | receive now connId serviceId package => cases fired
  | internal call => cases fired
  | expire now timerId =>
      change worker.dueTimer now timerId = some timer at fired
      simp only [turn, expireTurn, fired]
      cases worker.transList[timer.transId]? with
      | none => exact Or.inl ⟨rfl, rfl⟩
      | some waiting => exact Or.inr ⟨waiting, rfl, rfl⟩

theorem firedTimer_mem {timer : Timer}
    (fired : worker.firedTimer event = some timer) :
    timer ∈ worker.timers := by
  cases event with
  | receive now connId serviceId package => cases fired
  | internal call => cases fired
  | expire now timerId => exact (dueTimer_spec fired).1

/-- New timers belong to the transaction of the turn. -/
theorem mem_allTimers {timer : Timer}
    (present : timer ∈ allTimers program worker event) :
    timer ∈ worker.timers ∨
      (worker.turn program event).transId = some timer.transId ∧
        worker.nextTimerId ≤ timer.timerId ∧
        timer.timerId < worker.nextTimerId +
          (worker.turn program event).waits.length := by
  unfold allTimers at present
  unfold Turn.transId
  rcases List.mem_append.mp present with old | new
  · exact Or.inl old
  · cases own : (worker.turn program event).trans with
    | none =>
        rw [own] at new
        cases new
    | some entry =>
        rw [own] at new
        obtain ⟨same, above, below⟩ := mem_newTimers new
        exact Or.inr ⟨congrArg some same.symm, above, below⟩

/-- A timer is removed only when one fires: it is that one, or a new one. -/
theorem Turned.timers_cases (turned : Turned program worker event later) :
    worker.firedTimer event = none ∧
        later.timers = allTimers program worker event ∨
      ∃ fired popped, worker.firedTimer event = some fired ∧
        later.timers = (allTimers program worker event).erase popped ∧
        (popped = fired ∨
          (worker.turn program event).transId = some popped.transId ∧
            worker.nextTimerId ≤ popped.timerId ∧
            popped.timerId < worker.nextTimerId +
              (worker.turn program event).waits.length) := by
  have timers := turned.timers
  cases fires : worker.firedTimer event with
  | none =>
      rw [fires] at timers
      exact Or.inl ⟨rfl, timers⟩
  | some fired =>
      rw [fires] at timers
      obtain ⟨popped, left, which⟩ := popTimer_timers fired
        { worker with timers := allTimers program worker event }
      refine Or.inr ⟨fired, popped, rfl, timers.trans left, ?_⟩
      apply which.imp_right
      rintro ⟨present, earlier⟩
      rcases Worker.mem_allTimers present with old | new
      · have least := turned.least fired fires popped old
        omega
      · exact new

theorem Turned.mem_allTimers (turned : Turned program worker event later)
    {timer : Timer} (present : timer ∈ later.timers) :
    timer ∈ allTimers program worker event := by
  rcases turned.timers_cases with ⟨-, all⟩ | ⟨-, popped, -, left, -⟩
  · rwa [all] at present
  · rw [left] at present
    exact List.mem_of_mem_erase present

/-- At most one timer is removed. -/
theorem Turned.mem_timers_of_ne (turned : Turned program worker event later)
    {first second : Timer} (different : first ≠ second)
    (presentFirst : first ∈ allTimers program worker event)
    (presentSecond : second ∈ allTimers program worker event) :
    first ∈ later.timers ∨ second ∈ later.timers := by
  rcases turned.timers_cases with ⟨-, all⟩ | ⟨-, popped, -, left, -⟩
  · exact Or.inl (all ▸ presentFirst)
  · rw [left]
    by_cases same : first = popped
    · right
      rw [← same]
      exact (List.mem_erase_of_ne different.symm).mpr presentSecond
    · exact Or.inl ((List.mem_erase_of_ne same).mpr presentFirst)

/-- A timer of another registered transaction stays. -/
theorem Turned.timer_kept (turned : Turned program worker event later)
    (ids : worker.TransIds) {timer : Timer} (present : timer ∈ worker.timers)
    {trans : MultiplyPhaseTransaction Self}
    (registered : worker.transList[timer.transId]? = some trans)
    (other : (worker.turn program event).transId ≠ some timer.transId) :
    timer ∈ later.timers := by
  have still : timer ∈ allTimers program worker event :=
    List.mem_append_left _ present
  rcases turned.timers_cases with ⟨-, all⟩ | ⟨fired, popped, fires, left, which⟩
  · exact all ▸ still
  · rw [left]
    refine (List.mem_erase_of_ne ?_).mpr still
    rintro rfl
    rcases which with rfl | ⟨own, -⟩
    · obtain ⟨gone, -⟩ | ⟨waiting, found, fires⟩ :=
        turn_of_fired program fires
      · rw [registered] at gone
        cases gone
      · apply other
        rw [fires]
        exact congrArg some (ids _ _ found).1
    · exact other own

/-- A transaction that has waited in its turn has a timer. -/
theorem Turned.timer_left (turned : Turned program worker event later)
    (ids : worker.TransIds) (timerIds : worker.TimerIds)
    {trans : MultiplyPhaseTransaction Self}
    (own : (worker.turn program event).trans = some trans)
    (waited : (worker.turn program event).waits ≠ []) :
    ∃ timer ∈ later.timers, timer.transId = trans.id := by
  obtain ⟨wait, waits, same⟩ := List.exists_cons_of_ne_nil waited
  let new : Timer := ⟨worker.nextTimerId,
    event.now + wait.timeout * 1000000000, trans.id⟩
  have present : new ∈ allTimers program worker event := by
    unfold allTimers
    rw [own, same]
    exact List.mem_append_right _ List.mem_cons_self
  rcases turned.timers_cases with ⟨-, all⟩ | ⟨fired, popped, fires, left, which⟩
  · exact ⟨new, all ▸ present, rfl⟩
  · have old := firedTimer_mem fires
    have earlier := timerIds fired old
    have different : new ≠ fired := by
      rintro rfl
      exact Int.lt_irrefl _ earlier
    obtain ⟨-, idle⟩ | ⟨waiting, found, fires⟩ :=
      turn_of_fired program fires
    · rw [idle] at own
      cases own
    · rw [fires] at own
      cases own
      rcases turned.mem_timers_of_ne different present
        (List.mem_append_left _ old) with newLeft | oldLeft
      · exact ⟨new, newLeft, rfl⟩
      · exact ⟨fired, oldLeft, (ids _ _ found).1.symm⟩

theorem TimerIds.step (ids : worker.TimerIds)
    (turned : Turned program worker event later) : later.TimerIds := by
  intro timer present
  have counted := turned.nextTimerId
  rcases Worker.mem_allTimers (turned.mem_allTimers present) with old | new
  · have known := ids timer old
    omega
  · omega

/-! ## What keeps a transaction registered -/

variable (program worker event) in
/-- A transaction is kept without a wait only by an exception at a
timeout. -/
theorem timeoutEnds_iff :
    worker.TimeoutEnds program event ↔
      ((worker.turn program event).keeps = true →
        (worker.turn program event).waits ≠ []) := by
  cases event with
  | internal call => simp [TimeoutEnds, turn, Turn.idle]
  | receive now connId serviceId package =>
      simp only [TimeoutEnds, turn, receiveTurn, true_iff]
      split
      · split <;> simp [Turn.idle, memberTurn]
      · split <;> simp [Turn.idle, memberTurn]
  | expire now timerId =>
      simp only [TimeoutEnds, turn, expireTurn]
      cases due : worker.dueTimer now timerId with
      | none => simp [Turn.idle]
      | some timer =>
          cases found : worker.transList[timer.transId]? with
          | none => simp [found, Turn.idle]
          | some waiting =>
              simp only [Option.some.injEq, forall_eq', found, timeoutTurn]
              split <;> rename_i result <;> simp [result]

/-- A step keeps a timer for every registered transaction exactly if the
timeout ends its transaction. -/
theorem Pending.step_iff (pending : worker.Pending) (ids : worker.TransIds)
    (timerIds : worker.TimerIds)
    (turned : Turned program worker event later) :
    later.Pending ↔ worker.TimeoutEnds program event := by
  rw [timeoutEnds_iff]
  constructor
  · intro pendingLater keeps
    cases found : (worker.turn program event).trans with
    | none =>
        rw [(turns program worker event).of_none found] at keeps
        cases keeps
    | some trans =>
        have own := turned.own trans found
        rw [if_pos keeps] at own
        obtain ⟨self, registered⟩ := own
        have idle := (turns program worker event).idle_start found
        have waiting := (pendingLater _ _ registered).1
        exact (afterWaits_isWaiting idle self _).mp waiting
  · intro ends transId trans registered
    by_cases own : (worker.turn program event).transId = some transId
    · obtain ⟨entry, found, rfl⟩ := Option.map_eq_some_iff.mp own
      have left := turned.own entry found
      split at left
      · rename_i keeps
        obtain ⟨self, same⟩ := left
        rw [registered] at same
        cases same
        have idle := (turns program worker event).idle_start found
        have waited := ends keeps
        exact ⟨(afterWaits_isWaiting idle self _).mpr waited,
          turned.timer_left ids timerIds found waited⟩
      · rw [registered] at left
        cases left
    · rw [turned.others transId own] at registered
      obtain ⟨waiting, timer, present, rfl⟩ := pending transId trans registered
      exact ⟨waiting, timer, turned.timer_kept ids present registered own, rfl⟩

end Step

/-! ## Runs -/

/-- In a run, every registered transaction waits with a timer pending, exactly
as long as every timeout ends its transaction. -/
theorem pending_throughout_iff (program : Program App Self Message Call)
    (app : App) {events : List (Event Message Call)}
    {worker : Worker App Self Message}
    (reaches : (machine program app).Reaches events worker) :
    (machine program app).Throughout Pending events ↔
      (machine program app).StepsMeet
        (fun worker => worker.TimeoutEnds program) events := by
  refine Machine.Reaches.throughout_iff_stepsMeet
    (fun worker => worker.TransIds ∧ worker.TimerIds) ?_ ?_ ?_ ?_ reaches
  · constructor
    · intro transId trans found
      simp [machine, init] at found
    · intro timer present
      cases present
  · rintro worker event later ⟨ids, timerIds⟩ stepped
    exact ⟨ids.step stepped, timerIds.step (step_turned stepped)⟩
  · intro transId trans found
    simp [machine, init] at found
  · rintro worker event later ⟨ids, timerIds⟩ pending stepped
    exact pending.step_iff ids timerIds (step_turned stepped)

/-- A program whose only transaction waits once, for command 1030. -/
def waitingProgram (onError : Handler Unit Unit Unit Unit) :
    Program Unit Unit Unit Unit where
  protocol :=
    { command := fun _ => 0
      messageSize := fun _ => 0
      rspError := fun _ => ()
      isRspError := fun _ => true
      responseCommand := fun command => command + 1 }
  findTransaction := fun _ => some (.multiplyPhase ())
  onInit := fun _ _ _ => Frame.serviceWaitNextPhase 3 1030
  onActive := fun _ _ _ => pure ()
  onError := fun _ _ _ => onError
  internal := fun _ => pure ()

/-- A request arrives, and its transaction times out a second later. -/
def timeoutEvents : List (Event Unit Unit) :=
  [.receive 0 5 0 ⟨1027, 9, 0, some ()⟩, .expire 1000000000 1]

/-- The transaction is gone after the timeout, if `on_error` returns. -/
theorem pending_throughout_waitingProgram :
    (machine (waitingProgram (pure ())) ()).Throughout Pending
      timeoutEvents := by
  obtain ⟨worker, reaches⟩ : ∃ worker,
      (machine (waitingProgram (pure ())) ()).Reaches timeoutEvents worker :=
    ⟨_, rfl⟩
  refine (pending_throughout_iff (waitingProgram (pure ())) ()
    reaches).mpr (Machine.StepsMeet.of_forall ?_)
  intro event _ worker
  cases event with
  | receive now connId serviceId package => trivial
  | internal call => trivial
  | expire now timerId => exact fun timer _ waiting _ => Or.inl rfl

/-- If it throws, the transaction stays registered, and does not wait. -/
theorem not_pending_waitingProgram :
    ∃ worker,
      (machine (waitingProgram
        (throw ErrorCode.errNetworkPackageCannotParseToProtocol.fault))
        ()).Reaches timeoutEvents worker ∧
      ¬worker.Pending := by
  refine ⟨_, rfl, fun pending => ?_⟩
  have waits := (pending 1 _ rfl).1
  cases waits

end Worker

end Foundation
end Spaceless
