import Mathlib.Data.List.Pairwise
import Spaceless.Foundation.Timeout

/-!
# Timers and the phases of a transaction

A timer names a transaction, not the wait it was registered for.  The history
of the calls of `wait_next_phase` tells which wait a transaction is in when a
timer fires for it, and whether that wait has lasted as long as asked for.
-/

namespace Spaceless
namespace Foundation

open Logic

/-- A call of `wait_next_phase`: the phase that it starts, the clock reading,
the timeout in seconds, and the id of its timer. -/
structure WaitCall where
  transId : Int
  phase : Int
  since : Int
  timeout : Int
  timerId : Int
  deriving DecidableEq

/-- The timer that the call registers. -/
def WaitCall.timer (call : WaitCall) : Timer where
  timerId := call.timerId
  expiryTime := call.since + call.timeout * 1000000000
  transId := call.transId

/-- Two calls have different timers, and start different phases. -/
def WaitCall.Apart (first second : WaitCall) : Prop :=
  first.timerId ≠ second.timerId ∧
    (first.transId = second.transId → first.phase ≠ second.phase)

instance : Std.Symm WaitCall.Apart where
  symm _ _ apart :=
    ⟨apart.1.symm, fun same => (apart.2 same.symm).symm⟩

/-- The last call of a transaction. -/
def currentWait (calls : List WaitCall) (transId : Int) : Option WaitCall :=
  calls.reverse.find? fun call => call.transId == transId

/-- The calls that the members of a transaction make in a step. -/
def newCalls (now transId : Int) : Int → Int → List Wait → List WaitCall
  | _, _, [] => []
  | phase, timerId, wait :: waits =>
      { transId := transId
        phase := phase + 1
        since := now
        timeout := wait.timeout
        timerId := timerId } ::
      newCalls now transId (phase + 1) (timerId + 1) waits

/-- A worker with the calls of `wait_next_phase` so far. -/
structure Timed (App Self Message : Type) where
  worker : Worker App Self Message
  calls : List WaitCall

namespace Timed

open Worker (Event newTimers)

variable {App Self Message Call : Type}

/-- The calls of a step. -/
def turnCalls (program : Program App Self Message Call)
    (worker : Worker App Self Message) (event : Event Message Call) :
    List WaitCall :=
  match (worker.turn program event).trans with
  | none => []
  | some entry => newCalls event.now entry.id entry.currentPhase
      worker.nextTimerId (worker.turn program event).waits

def step (program : Program App Self Message Call)
    (timed : Timed App Self Message) (event : Event Message Call) :
    Option (Timed App Self Message) :=
  (timed.worker.step program event).map fun later =>
    ⟨later, timed.calls ++ turnCalls program timed.worker event⟩

/-- The machine of the worker with its history. -/
def machine (program : Program App Self Message Call) (app : App) :
    Machine (Timed App Self Message) (Event Message Call) where
  start := ⟨Worker.init app, []⟩
  step := step program

/-- The timeout error of a transaction is raised only while it waits, by the
timer of the wait that it is in, and once that wait has lasted for its
timeout. -/
def RaisesInTime (timed : Timed App Self Message) :
    Event Message Call → Prop
  | .expire now timerId => ∀ timer,
      timed.worker.dueTimer now timerId = some timer →
      ∀ waiting, timed.worker.transList[timer.transId]? = some waiting →
      waiting.isWaiting = true ∧
        ∃ call, currentWait timed.calls timer.transId = some call ∧
          call.timerId = timerId ∧
          call.since + call.timeout * 1000000000 ≤ now
  | _ => True

/-- A timer that fires for a registered transaction was registered in the
phase that the transaction is in. -/
def FiresInPhase (timed : Timed App Self Message) :
    Event Message Call → Prop
  | .expire now timerId => ∀ timer,
      timed.worker.dueTimer now timerId = some timer →
      ∀ waiting, timed.worker.transList[timer.transId]? = some waiting →
      ∀ call ∈ timed.calls, call.timerId = timerId →
        call.phase = waiting.currentPhase
  | _ => True

/-- The wait was answered, as the transaction has waited again since, and the
transaction goes on. -/
def Answered (timed : Timed App Self Message) (wait : WaitCall) : Prop :=
  (timed.worker.transList[wait.transId]?).isSome = true ∧
    ∃ later ∈ timed.calls, later.transId = wait.transId ∧
      wait.phase < later.phase

/-- Whenever timers are processed, a transaction that goes on after the answer
to a wait has the time that this wait was given before it. -/
def WithinDeadlines (timed : Timed App Self Message) :
    Event Message Call → Prop
  | .expire now _ => ∀ wait ∈ timed.calls, timed.Answered wait →
      now < wait.since + wait.timeout * 1000000000
  | _ => True

/-- What the history says about timers and registered transactions. -/
structure Sound (timed : Timed App Self Message) : Prop where
  ids : timed.worker.TransIds
  timers : timed.worker.timers.Sublist (timed.calls.map WaitCall.timer)
  known : ∀ call ∈ timed.calls,
    call.timerId < timed.worker.nextTimerId ∧
      call.transId < timed.worker.nextTransId
  distinct : timed.calls.Pairwise WaitCall.Apart
  current : ∀ transId trans,
    timed.worker.transList[transId]? = some trans →
    (∃ call, currentWait timed.calls transId = some call ∧
      call.phase = trans.currentPhase) ∧
    ∀ call ∈ timed.calls, call.transId = transId →
      call.phase ≤ trans.currentPhase
  idle : ∀ transId trans,
    timed.worker.transList[transId]? = some trans →
    trans.isWaiting = false →
    ∀ call ∈ timed.calls, call.transId = transId →
      call.timer ∈ timed.worker.timers →
      call.phase ≠ trans.currentPhase

/-! ## The calls of a step -/

theorem mem_newCalls {now transId phase timerId : Int} {waits : List Wait}
    {call : WaitCall} (new : call ∈ newCalls now transId phase timerId waits) :
    call.transId = transId ∧ phase < call.phase ∧
      call.phase ≤ phase + waits.length ∧ timerId ≤ call.timerId ∧
      call.timerId < timerId + waits.length := by
  induction waits generalizing phase timerId with
  | nil => cases new
  | cons wait waits inductionHypothesis =>
      rw [List.length_cons]
      rcases List.mem_cons.mp new with rfl | later
      · dsimp only
        exact ⟨rfl, by omega, by omega, by omega, by omega⟩
      · obtain ⟨same, above, below, aboveId, belowId⟩ :=
          inductionHypothesis later
        exact ⟨same, by omega, by omega, by omega, by omega⟩

theorem newCalls_timers (now transId phase timerId : Int)
    (waits : List Wait) :
    (newCalls now transId phase timerId waits).map WaitCall.timer =
      newTimers now transId timerId waits := by
  induction waits generalizing phase timerId with
  | nil => rfl
  | cons wait waits inductionHypothesis =>
      rw [newCalls, List.map_cons, inductionHypothesis]
      rfl

theorem newCalls_distinct (now transId phase timerId : Int)
    (waits : List Wait) :
    (newCalls now transId phase timerId waits).Pairwise WaitCall.Apart := by
  induction waits generalizing phase timerId with
  | nil => exact .nil
  | cons wait waits inductionHypothesis =>
      refine .cons ?_ (inductionHypothesis _ _)
      intro call later
      obtain ⟨-, above, -, aboveId, -⟩ := mem_newCalls later
      unfold WaitCall.Apart
      dsimp only
      exact ⟨by omega, fun _ => by omega⟩

theorem currentWait_append (calls new : List WaitCall) (transId : Int) :
    currentWait (calls ++ new) transId =
      (currentWait new transId).or (currentWait calls transId) := by
  unfold currentWait
  rw [List.reverse_append, List.find?_append]

/-- The last of the new calls starts the phase that the transaction is left
in. -/
theorem currentWait_newCalls {now transId phase timerId : Int}
    {waits : List Wait} (waited : waits ≠ []) :
    ∃ call, currentWait (newCalls now transId phase timerId waits) transId =
        some call ∧
      call.phase = phase + waits.length := by
  induction waits generalizing phase timerId with
  | nil => exact absurd rfl waited
  | cons wait waits inductionHypothesis =>
      let first : WaitCall :=
        ⟨transId, phase + 1, now, wait.timeout, timerId⟩
      have split : newCalls now transId phase timerId (wait :: waits) =
          [first] ++ newCalls now transId (phase + 1) (timerId + 1) waits :=
        rfl
      rw [split, currentWait_append, List.length_cons]
      by_cases more : waits = []
      · refine ⟨first, ?_, ?_⟩
        · rw [more]
          simp [currentWait, newCalls, first]
        · simp [more, first]
      · obtain ⟨call, found, same⟩ := inductionHypothesis more
        refine ⟨call, ?_, ?_⟩
        · rw [found, Option.some_or]
        · omega

theorem currentWait_of_other {calls : List WaitCall} {transId : Int}
    (other : ∀ call ∈ calls, call.transId ≠ transId) :
    currentWait calls transId = none := by
  unfold currentWait
  rw [List.find?_eq_none]
  intro call present
  simpa using other call (List.mem_reverse.mp present)

theorem mem_of_currentWait {calls : List WaitCall} {transId : Int}
    {call : WaitCall} (current : currentWait calls transId = some call) :
    call ∈ calls ∧ call.transId = transId := by
  unfold currentWait at current
  exact ⟨List.mem_reverse.mp (List.mem_of_find?_eq_some current),
    by simpa using List.find?_some current⟩

section Step

variable {program : Program App Self Message Call}
  {worker : Worker App Self Message} {event : Event Message Call}

theorem mem_turnCalls {call : WaitCall}
    (new : call ∈ turnCalls program worker event) :
    ∃ trans, (worker.turn program event).trans = some trans ∧
      call.transId = trans.id ∧
      trans.currentPhase < call.phase ∧
      call.phase ≤ trans.currentPhase +
        (worker.turn program event).waits.length ∧
      worker.nextTimerId ≤ call.timerId ∧
      call.timerId < worker.nextTimerId +
        (worker.turn program event).waits.length := by
  unfold turnCalls at new
  cases own : (worker.turn program event).trans with
  | none =>
      rw [own] at new
      cases new
  | some trans =>
      rw [own] at new
      exact ⟨trans, rfl, mem_newCalls new⟩

theorem turnCalls_of_idle
    (idle : (worker.turn program event).waits = []) :
    turnCalls program worker event = [] := by
  unfold turnCalls
  rw [idle]
  split <;> rfl

theorem allTimers_eq (program : Program App Self Message Call)
    (worker : Worker App Self Message) (event : Event Message Call) :
    Worker.allTimers program worker event =
      worker.timers ++ (turnCalls program worker event).map
        WaitCall.timer := by
  unfold Worker.allTimers turnCalls
  cases (worker.turn program event).trans with
  | none => rfl
  | some trans =>
      dsimp only
      rw [newCalls_timers]

theorem turnCalls_distinct (program : Program App Self Message Call)
    (worker : Worker App Self Message) (event : Event Message Call) :
    (turnCalls program worker event).Pairwise WaitCall.Apart := by
  unfold turnCalls
  cases (worker.turn program event).trans with
  | none => exact .nil
  | some trans => exact newCalls_distinct ..

variable {timed : Timed App Self Message} {later : Worker App Self Message}

theorem firesInPhase_fired (inPhase : timed.FiresInPhase event)
    {fired : Timer} (fires : timed.worker.firedTimer event = some fired)
    {waiting : MultiplyPhaseTransaction Self}
    (registered : timed.worker.transList[fired.transId]? = some waiting) :
    ∀ call ∈ timed.calls, call.timerId = fired.timerId →
      call.phase = waiting.currentPhase := by
  cases event with
  | receive now connId serviceId package => cases fires
  | internal call => cases fires
  | expire now timerId =>
      rw [(Worker.dueTimer_spec fires).2.1]
      exact inPhase fired fires waiting registered

/-- Two calls in the history with the same timer are the same. -/
theorem Sound.eq_of_timerId (sound : timed.Sound) {first second : WaitCall}
    (presentFirst : first ∈ timed.calls)
    (presentSecond : second ∈ timed.calls)
    (same : first.timerId = second.timerId) : first = second := by
  by_contra different
  exact (sound.distinct.forall presentFirst presentSecond different).1 same

/-- Two calls of a transaction that start the same phase are the same. -/
theorem Sound.eq_of_phase (sound : timed.Sound) {first second : WaitCall}
    (presentFirst : first ∈ timed.calls)
    (presentSecond : second ∈ timed.calls)
    (sameTrans : first.transId = second.transId)
    (samePhase : first.phase = second.phase) : first = second := by
  by_contra different
  exact (sound.distinct.forall presentFirst presentSecond different).2
    sameTrans samePhase

theorem Sound.call_of_timer (sound : timed.Sound) {timer : Timer}
    (present : timer ∈ timed.worker.timers) :
    ∃ call ∈ timed.calls, call.timer = timer :=
  List.mem_map.mp (sound.timers.subset present)

theorem Sound.nodup (sound : timed.Sound) : timed.worker.timers.Nodup := by
  apply sound.timers.nodup
  rw [List.Nodup, List.pairwise_map]
  apply sound.distinct.imp
  intro first second apart same
  exact apart.1 (congrArg Timer.timerId same)

/-- The phase that a transaction has its turn in is past all its calls. -/
theorem Sound.phase_le (sound : timed.Sound)
    {trans : MultiplyPhaseTransaction Self}
    (own : (timed.worker.turn program event).trans = some trans)
    {call : WaitCall} (present : call ∈ timed.calls)
    (same : call.transId = trans.id) : call.phase ≤ trans.currentPhase := by
  have kinds := Worker.turns program timed.worker event
  rcases kinds.trans_cases sound.ids own with
    new | ⟨waiting, registered, rfl⟩
  · have known := (sound.known call present).2
    omega
  · exact (sound.current _ waiting registered).2 call present same

theorem Sound.step_timers (sound : timed.Sound)
    (turned : Worker.Turned program timed.worker event later) :
    later.timers.Sublist
      ((timed.calls ++ turnCalls program timed.worker event).map
        WaitCall.timer) := by
  have all : (Worker.allTimers program timed.worker event).Sublist
      ((timed.calls ++ turnCalls program timed.worker event).map
        WaitCall.timer) := by
    rw [allTimers_eq, List.map_append]
    exact sound.timers.append (List.Sublist.refl _)
  rcases turned.timers_cases with ⟨-, same⟩ | ⟨-, popped, -, left, -⟩
  · rwa [same]
  · rw [left]
    exact List.erase_sublist.trans all

theorem Sound.step_distinct (sound : timed.Sound) :
    (timed.calls ++ turnCalls program timed.worker event).Pairwise
      WaitCall.Apart := by
  rw [List.pairwise_append]
  refine ⟨sound.distinct, turnCalls_distinct .., ?_⟩
  intro first old second new
  obtain ⟨trans, own, transId, above, -, aboveId, -⟩ := mem_turnCalls new
  have known := (sound.known first old).1
  refine ⟨by omega, fun same => ?_⟩
  have before := sound.phase_le own old (same.trans transId)
  omega

/-- The wait of a transaction that has no turn stays. -/
theorem Sound.current_of_other (sound : timed.Sound) {transId : Int}
    (away : (timed.worker.turn program event).transId ≠ some transId)
    {trans : MultiplyPhaseTransaction Self}
    (registered : timed.worker.transList[transId]? = some trans) :
    (∃ call, currentWait
        (timed.calls ++ turnCalls program timed.worker event) transId =
          some call ∧
      call.phase = trans.currentPhase) ∧
    ∀ call ∈ timed.calls ++ turnCalls program timed.worker event,
      call.transId = transId → call.phase ≤ trans.currentPhase := by
  have foreign (call : WaitCall)
      (new : call ∈ turnCalls program timed.worker event) :
      call.transId ≠ transId := by
    obtain ⟨entry, found, same, -⟩ := mem_turnCalls new
    rintro rfl
    apply away
    rw [Turn.transId, found, same]
    rfl
  obtain ⟨⟨call, current, phase⟩, before⟩ :=
    sound.current transId trans registered
  rw [currentWait_append, currentWait_of_other foreign, Option.none_or]
  refine ⟨⟨call, current, phase⟩, fun call present same => ?_⟩
  rcases List.mem_append.mp present with old | new
  · exact before call old same
  · exact absurd same (foreign call new)

/-- A transaction that waits in its turn is in the last of the new waits. -/
theorem Sound.current_of_waits (sound : timed.Sound)
    {trans : MultiplyPhaseTransaction Self}
    (own : (timed.worker.turn program event).trans = some trans)
    (waited : (timed.worker.turn program event).waits ≠ []) :
    (∃ call, currentWait
        (timed.calls ++ turnCalls program timed.worker event) trans.id =
          some call ∧
      call.phase = trans.currentPhase +
        (timed.worker.turn program event).waits.length) ∧
    ∀ call ∈ timed.calls ++ turnCalls program timed.worker event,
      call.transId = trans.id → call.phase ≤ trans.currentPhase +
        (timed.worker.turn program event).waits.length := by
  have new : turnCalls program timed.worker event =
      newCalls event.now trans.id trans.currentPhase
        timed.worker.nextTimerId
        (timed.worker.turn program event).waits := by
    unfold turnCalls
    rw [own]
  obtain ⟨call, current, phase⟩ : ∃ call, currentWait
      (turnCalls program timed.worker event) trans.id = some call ∧
      call.phase = trans.currentPhase +
        (timed.worker.turn program event).waits.length := by
    rw [new]
    exact currentWait_newCalls waited
  rw [currentWait_append, current, Option.some_or]
  refine ⟨⟨call, rfl, phase⟩, fun other present same => ?_⟩
  rcases List.mem_append.mp present with old | fresh
  · have before := sound.phase_le own old same
    omega
  · obtain ⟨owner, turns, -, -, below, -⟩ := mem_turnCalls fresh
    rw [own] at turns
    cases turns
    exact below

/-- The wait that a registered transaction is in after the step. -/
theorem Sound.step_current (sound : timed.Sound)
    (turned : Worker.Turned program timed.worker event later)
    {transId : Int} {trans : MultiplyPhaseTransaction Self}
    (registered : later.transList[transId]? = some trans) :
    (∃ call, currentWait
        (timed.calls ++ turnCalls program timed.worker event) transId =
          some call ∧
      call.phase = trans.currentPhase) ∧
    ∀ call ∈ timed.calls ++ turnCalls program timed.worker event,
      call.transId = transId → call.phase ≤ trans.currentPhase := by
  by_cases own : (timed.worker.turn program event).transId = some transId
  · obtain ⟨entry, found, rfl⟩ := Option.map_eq_some_iff.mp own
    have left := turned.own entry found
    split at left
    · rename_i keeps
      obtain ⟨self, same⟩ := left
      rw [registered] at same
      cases same
      rw [Worker.afterWaits_currentPhase]
      by_cases idle : (timed.worker.turn program event).waits = []
      · -- a timeout that keeps the transaction without a new wait
        obtain ⟨timer, waiting, -, before, turn⟩ :=
          (Worker.turns program timed.worker event).of_kept_idle keeps idle
        rw [turn] at found
        cases found
        have same := (sound.ids _ _ before).1
        rw [← same] at before
        rw [turnCalls_of_idle idle, idle, List.append_nil, List.length_nil,
          Int.ofNat_zero, Int.add_zero]
        exact sound.current _ waiting before
      · exact sound.current_of_waits found idle
    · rw [registered] at left
      cases left
  · rw [turned.others transId own] at registered
    exact sound.current_of_other own registered

theorem Sound.step_known (sound : timed.Sound)
    (stepped : timed.worker.step program event = some later)
    {call : WaitCall}
    (present : call ∈ timed.calls ++
      turnCalls program timed.worker event) :
    call.timerId < later.nextTimerId ∧ call.transId < later.nextTransId := by
  have turned := Worker.step_turned stepped
  have counted := turned.nextTimerId
  rcases List.mem_append.mp present with old | new
  · have known := sound.known call old
    have grows := Worker.step_nextTransId_le stepped
    omega
  · obtain ⟨trans, own, same, -, -, above, below⟩ := mem_turnCalls new
    have waited : (timed.worker.turn program event).waits ≠ [] := by
      intro none
      rw [none, List.length_nil] at below
      omega
    have keeps :=
      (Worker.turns program timed.worker event).keeps_of_waits waited
    have left := turned.own trans own
    rw [if_pos keeps] at left
    obtain ⟨self, registered⟩ := left
    have known := (sound.ids.step stepped _ _ registered).2
    omega

/-- The timer of a transaction that has timed out is gone. -/
theorem Sound.not_mem_of_fired (sound : timed.Sound)
    (turned : Worker.Turned program timed.worker event later)
    (idle : (timed.worker.turn program event).waits = [])
    {fired : Timer} (fires : timed.worker.firedTimer event = some fired) :
    fired ∉ later.timers := by
  have timers := allTimers_eq program timed.worker event
  rw [turnCalls_of_idle idle, List.map_nil, List.append_nil] at timers
  obtain ⟨none, -⟩ | ⟨other, popped, same, left, rfl | ⟨-, above, below⟩⟩ :=
    turned.timers_cases
  · rw [fires] at none
    cases none
  · rw [fires] at same
    cases same
    rw [left, timers]
    exact sound.nodup.not_mem_erase
  · rw [idle, List.length_nil] at below
    omega

theorem Sound.step_idle (sound : timed.Sound)
    (inPhase : timed.FiresInPhase event)
    (turned : Worker.Turned program timed.worker event later)
    {transId : Int} {trans : MultiplyPhaseTransaction Self}
    (registered : later.transList[transId]? = some trans)
    (idle : trans.isWaiting = false) {call : WaitCall}
    (present : call ∈ timed.calls ++ turnCalls program timed.worker event)
    (same : call.transId = transId)
    (pending : call.timer ∈ later.timers) :
    call.phase ≠ trans.currentPhase := by
  have shape := Worker.turns program timed.worker event
  have earlier := turned.mem_allTimers pending
  by_cases own : (timed.worker.turn program event).transId = some transId
  · obtain ⟨entry, found, rfl⟩ := Option.map_eq_some_iff.mp own
    have left := turned.own entry found
    split at left
    · rename_i keeps
      obtain ⟨self, kept⟩ := left
      rw [registered] at kept
      cases kept
      have quiet : (timed.worker.turn program event).waits = [] := by
        by_contra waited
        rw [(Worker.afterWaits_isWaiting (shape.idle_start found) self
          _).mpr waited] at idle
        cases idle
      obtain ⟨fired, waiting, fires, before, turn⟩ :=
        shape.of_kept_idle keeps quiet
      have gone := sound.not_mem_of_fired turned quiet fires
      have old : call ∈ timed.calls := by
        rwa [turnCalls_of_idle quiet, List.append_nil] at present
      rw [Worker.afterWaits_currentPhase, quiet, List.length_nil,
        Int.ofNat_zero, Int.add_zero]
      rw [turn] at found
      cases found
      intro phase
      obtain ⟨first, there, rfl⟩ :=
        sound.call_of_timer (Worker.firedTimer_mem fires)
      have current := firesInPhase_fired inPhase fires before first there rfl
      have sameTrans : call.transId = first.transId :=
        same.trans (sound.ids _ _ before).1
      obtain rfl := sound.eq_of_phase old there sameTrans
        (phase.trans current.symm)
      exact gone pending
    · rw [registered] at left
      cases left
  · rw [turned.others transId own] at registered
    rcases List.mem_append.mp present with old | new
    · rcases Worker.mem_allTimers earlier with before | ⟨owner, -⟩
      · exact sound.idle transId trans registered idle call old same before
      · exact absurd (owner.trans (congrArg some same)) own
    · obtain ⟨entry, found, owner, -⟩ := mem_turnCalls new
      refine absurd ?_ own
      rw [Turn.transId, found, ← same, owner]
      rfl

theorem Sound.step (sound : timed.Sound)
    (inPhase : timed.FiresInPhase event) {next : Timed App Self Message}
    (stepped : timed.step program event = some next) : next.Sound := by
  obtain ⟨later, worked, rfl⟩ := Option.map_eq_some_iff.mp stepped
  have turned := Worker.step_turned worked
  exact
    { ids := sound.ids.step worked
      timers := sound.step_timers turned
      known := fun call present => sound.step_known worked present
      distinct := sound.step_distinct
      current := fun transId trans registered =>
        sound.step_current turned registered
      idle := fun transId trans registered idle call present same pending =>
        sound.step_idle inPhase turned registered idle present same pending }

/-- The timer that fires is that of the current wait exactly if it was
registered in the current phase. -/
theorem Sound.raisesInTime_iff (sound : timed.Sound) :
    timed.RaisesInTime event ↔ timed.FiresInPhase event := by
  cases event with
  | receive now connId serviceId package => rfl
  | internal call => rfl
  | expire now timerId =>
      constructor
      · intro inTime timer due waiting registered call present same
        obtain ⟨-, current, found, own, -⟩ :=
          inTime timer due waiting registered
        obtain ⟨last, lastFound, phase⟩ :=
          (sound.current _ waiting registered).1
        rw [found] at lastFound
        cases lastFound
        have there := (mem_of_currentWait found).1
        rw [sound.eq_of_timerId present there (same.trans own.symm)]
        exact phase
      · intro inPhase timer due waiting registered
        obtain ⟨pending, own, late⟩ := Worker.dueTimer_spec due
        obtain ⟨call, present, rfl⟩ := sound.call_of_timer pending
        have phase := inPhase _ due waiting registered call present own
        obtain ⟨last, found, lastPhase⟩ :=
          (sound.current _ waiting registered).1
        obtain ⟨there, same⟩ := mem_of_currentWait found
        obtain rfl := sound.eq_of_phase there present same
          (lastPhase.trans phase.symm)
        refine ⟨?_, last, found, own, late⟩
        by_contra idle
        rw [Bool.not_eq_true] at idle
        exact sound.idle _ waiting registered idle last present rfl pending
          phase

/-- As long as the transactions that wait again are over before the deadlines
of their answered waits, a timer fires in its own phase only. -/
theorem Sound.firesInPhase_of_withinDeadlines (sound : timed.Sound)
    (within : timed.WithinDeadlines event) : timed.FiresInPhase event := by
  cases event with
  | receive now connId serviceId package => trivial
  | internal call => trivial
  | expire now timerId =>
      intro timer due waiting registered call present same
      obtain ⟨pending, own, late⟩ := Worker.dueTimer_spec due
      obtain ⟨first, there, rfl⟩ := sound.call_of_timer pending
      obtain rfl := sound.eq_of_timerId present there (same.trans own.symm)
      obtain ⟨⟨last, found, phase⟩, before⟩ :=
        sound.current _ waiting registered
      obtain ⟨thereLast, sameTrans⟩ := mem_of_currentWait found
      by_contra other
      have answered : timed.Answered call := by
        refine ⟨Option.isSome_of_eq_some registered, last, thereLast,
          sameTrans, ?_⟩
        rw [phase]
        exact Int.lt_iff_le_and_ne.mpr ⟨before call present rfl, other⟩
      exact Int.not_le.mpr (within call present answered) late

/-- The timer of an answered wait ends the transaction in a later one when
its time has come. -/
theorem Sound.not_raisesInTime_of_answered (sound : timed.Sound)
    {wait : WaitCall} (present : wait ∈ timed.calls)
    (answered : timed.Answered wait) (pending : wait.timer ∈
      timed.worker.timers) {now : Int}
    (late : wait.since + wait.timeout * 1000000000 ≤ now) :
    ¬timed.RaisesInTime
      (.expire now wait.timerId : Event Message Call) := by
  obtain ⟨registered, later, there, sameTrans, after⟩ := answered
  obtain ⟨waiting, registered⟩ := Option.isSome_iff_exists.mp registered
  have due : timed.worker.dueTimer now wait.timerId = some wait.timer := by
    obtain ⟨timer, found⟩ : ∃ timer, (timed.worker.timers.find?
        fun timer => timer.timerId == wait.timerId) = some timer :=
      Option.isSome_iff_exists.mp (List.find?_isSome.mpr
        ⟨wait.timer, pending, beq_self_eq_true wait.timerId⟩)
    obtain ⟨other, thereOther, rfl⟩ :=
      sound.call_of_timer (List.mem_of_find?_eq_some found)
    have own : other.timerId = wait.timerId := by
      simpa [WaitCall.timer] using List.find?_some found
    obtain rfl := sound.eq_of_timerId thereOther present own
    rw [Worker.dueTimer, found]
    exact Option.filter_eq_some_iff.mpr ⟨rfl, decide_eq_true late⟩
  intro inTime
  obtain ⟨-, current, found, own, -⟩ :=
    inTime wait.timer due waiting registered
  obtain ⟨last, lastFound, phase⟩ := (sound.current _ waiting registered).1
  obtain rfl := Option.some.inj (found.symm.trans lastFound)
  obtain rfl := sound.eq_of_timerId (mem_of_currentWait found).1 present own
  have below := (sound.current _ waiting registered).2 later there sameTrans
  omega

end Step

/-! ## Runs -/

theorem run_worker (program : Program App Self Message Call) (app : App)
    (events : List (Event Message Call)) (timed : Timed App Self Message) :
    ((machine program app).run timed events).map Timed.worker =
      (Worker.machine program app).run timed.worker events := by
  induction events generalizing timed with
  | nil => rfl
  | cons event events inductionHypothesis =>
      rw [Machine.run_cons, Machine.run_cons]
      change Option.map _ (Option.bind (Option.map _ _) _) =
        (timed.worker.step program event).bind _
      cases timed.worker.step program event with
      | none => rfl
      | some later => exact inductionHypothesis _

/-- The history does not change what the worker does. -/
theorem reaches_worker_iff (program : Program App Self Message Call)
    (app : App) (events : List (Event Message Call))
    (worker : Worker App Self Message) :
    (∃ calls, (machine program app).Reaches events ⟨worker, calls⟩) ↔
      (Worker.machine program app).Reaches events worker := by
  have same := run_worker program app events (machine program app).start
  unfold Machine.Reaches
  change _ ↔ (Worker.machine program app).run
    (machine program app).start.worker events = some worker
  rw [← same, Option.map_eq_some_iff]
  constructor
  · rintro ⟨calls, run⟩
    exact ⟨_, run, rfl⟩
  · rintro ⟨timed, run, rfl⟩
    exact ⟨timed.calls, run⟩

theorem sound_start (program : Program App Self Message Call) (app : App) :
    (machine program app).start.Sound where
  ids := by
    intro transId trans found
    simp [machine, Worker.init] at found
  timers := List.Sublist.slnil
  known := by
    intro call present
    cases present
  distinct := .nil
  current := by
    intro transId trans found
    simp [machine, Worker.init] at found
  idle := by
    intro transId trans found
    simp [machine, Worker.init] at found

/-- In a run, timeout errors are raised in time exactly as long as every timer
that fires for a registered transaction was registered in the phase that the
transaction is in. -/
theorem raisesInTime_iff_firesInPhase
    (program : Program App Self Message Call) (app : App)
    (events : List (Event Message Call)) :
    (machine program app).StepsMeet RaisesInTime events ↔
      (machine program app).StepsMeet FiresInPhase events :=
  Machine.stepsMeet_iff Sound (sound_start program app)
    (fun _ _ _ sound inPhase stepped => sound.step inPhase stepped)
    (fun _ _ sound => sound.raisesInTime_iff) events

/-- In a run whose transactions end before the deadlines of the waits that
were answered, timeout errors are raised in time. -/
theorem raisesInTime_of_withinDeadlines
    {program : Program App Self Message Call} {app : App}
    {events : List (Event Message Call)}
    (within : (machine program app).StepsMeet WithinDeadlines events) :
    (machine program app).StepsMeet RaisesInTime events := by
  rintro first event second rfl timed reaches
  have sound : timed.Sound :=
    within.of_append.invariant (sound_start program app)
      (fun _ _ _ sound within stepped =>
        sound.step (sound.firesInPhase_of_withinDeadlines within) stepped)
      reaches
  exact sound.raisesInTime_iff.mpr (sound.firesInPhase_of_withinDeadlines
    (within first event second rfl timed reaches))

/-- A transaction that asks once more when it is answered. -/
def twoPhasesProgram : Program Unit Unit Unit Unit :=
  { Worker.waitingProgram (pure ()) with
    onInit := fun trans _ _ => do
      Frame.serviceSendProtocol 3 () trans.id
      Frame.serviceWaitNextPhase 3 1030
    onActive := fun trans _ _ => do
      Frame.serviceSendProtocol 3 () trans.id
      Frame.serviceWaitNextPhase 3 1030 }

/-- The answer to the first package comes after 0.9 seconds.  A tenth of a
second later the timer of the first wait ends the second one. -/
theorem not_raisesInTime_twoPhasesProgram :
    ∃ timed next,
      (machine twoPhasesProgram ()).Reaches
        [.receive 0 5 0 ⟨1027, 9, 0, some ()⟩,
          .receive 900000000 0 3 ⟨1030, 4, 2, some ()⟩] timed ∧
      timed.step twoPhasesProgram (.expire 1000000000 1) = some next ∧
      ¬timed.RaisesInTime (.expire 1000000000 1 : Event Unit Unit) := by
  refine ⟨_, _, rfl, rfl, fun inTime => ?_⟩
  obtain ⟨-, call, found, own, -⟩ := inTime _ rfl _ rfl
  cases found
  exact absurd own (by decide)

end Timed

end Foundation
end Spaceless
