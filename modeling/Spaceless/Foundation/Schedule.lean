import Spaceless.Foundation.Timer

/-!
# The schedule of timers

Runs of the timer manager in which no action touches the manager.  A timer is
run in the order of expiry and not before its time, stays in the queue until
it is due or removed, and runs no more afterwards.
-/

namespace Spaceless
namespace Foundation

open Logic

variable {Action : Type}

/-- The action that a call may run does not touch the timer manager. -/
def TimerEvent.KeepsOff : TimerEvent Action → Prop
  | .call _ => True
  | .processExpiryTimer _ calls _ => calls = []

namespace TimerManager

variable {algorithms : HeapAlgorithms (@timerCompare Action)}
  {manager next : TimerManager Action}

/-- What a step without calls of an action does. -/
inductive Moves (manager next : TimerManager Action) :
    TimerEvent Action → Prop
  | called (call : TimerCall Action)
      (same : next.SameTimers (call.ask manager)) :
      Moves manager next (.call call)
  | early (now later : PreciseTime) (notDue : manager.expired now = none)
      (same : next = manager) :
      Moves manager next (.processExpiryTimer now [] later)
  | ran (now later : PreciseTime) (top : Timer Action)
      (rest : List (Timer Action)) (due : manager.expired now = some top)
      (queue : manager.timerQueue = top :: rest)
      (same : next.SameTimers
        { manager with timerQueue := reschedule later top ++ rest }) :
      Moves manager next (.processExpiryTimer now [] later)

/-- Every step is possible, keeps the queue well formed and is one of the
moves. -/
theorem step_spec (wellFormed : manager.WellFormed)
    {event : TimerEvent Action} (keepsOff : event.KeepsOff) :
    ∃ next, (machine algorithms).step manager event = some next ∧
      next.WellFormed ∧ Moves manager next event := by
  cases event with
  | call call =>
      obtain ⟨performed, asked⟩ := call.perform_spec wellFormed
      exact ⟨_, rfl, performed, .called call asked⟩
  | processExpiryTimer now calls later =>
      obtain rfl : calls = [] := keepsOff
      cases due : manager.expired now with
      | none =>
          refine ⟨manager, ?_, wellFormed, .early now later due rfl⟩
          simp [machine, step, processExpiryTimer, due]
      | some top =>
          obtain ⟨⟨rest, queue⟩, -⟩ := expired_eq_some_iff.mp due
          obtain ⟨after, processed, same, nextId⟩ :
              ∃ after, manager.processExpiryTimer algorithms now [] later =
                some (1, after) ∧
                after.timerQueue.Perm (reschedule later top ++ rest) ∧
                after.nextId = manager.nextId :=
            processExpiryTimer_perm wellFormed due queue
          have noCalls : (([] : List (TimerCall Action)).foldl
              (TimerCall.perform algorithms) manager).timerQueue =
                top :: rest := queue
          refine ⟨after, ?_,
            wellFormed_processExpiryTimer wellFormed due noCalls processed,
            .ran now later top rest due queue ⟨same, nextId⟩⟩
          simp only [machine, step, processed, Option.map_some]

theorem moves_of_step (wellFormed : manager.WellFormed)
    {event : TimerEvent Action} (keepsOff : event.KeepsOff)
    (stepped : (machine algorithms).step manager event = some next) :
    next.WellFormed ∧ Moves manager next event := by
  obtain ⟨after, possible, left, moves⟩ := step_spec wellFormed keepsOff
  cases possible.symm.trans stepped
  exact ⟨left, moves⟩

/-- A property of timers that does not speak of their expiry time. -/
def Timeless (property : Timer Action → Prop) : Prop :=
  ∀ timer time, property timer → property { timer with expiryTime := time }

/-- The timers of an identifier that was handed out have the property. -/
structure Each (timerId : Int) (property : Timer Action → Prop)
    (manager : TimerManager Action) : Prop where
  wellFormed : manager.WellFormed
  known : timerId < manager.nextId
  each : ∀ timer ∈ manager.timerQueue, timer.timerId = timerId →
    property timer

/-- Identifiers are not handed out again, so what holds of the timers of one
goes on to hold. -/
theorem Each.step {timerId : Int} {property : Timer Action → Prop}
    (timeless : Timeless property) (inside : manager.Each timerId property)
    {event : TimerEvent Action} (keepsOff : event.KeepsOff)
    (stepped : (machine algorithms).step manager event = some next) :
    next.Each timerId property ∧ ∀ timer ∈ fired manager event next,
      timer.timerId = timerId → property timer := by
  obtain ⟨wellFormed, moves⟩ := moves_of_step inside.wellFormed keepsOff
    stepped
  cases moves with
  | called call same =>
      refine ⟨⟨wellFormed, ?_, ?_⟩, by simp [fired]⟩
      · rw [same.nextId]
        exact Int.lt_of_lt_of_le inside.known (call.nextId_le_ask manager)
      · intro timer present named
        rcases TimerCall.mem_ask (same.timerQueue.mem_iff.mp present) with
          before | new
        · exact inside.each timer before named
        · have known := inside.known
          rw [← named, new] at known
          exact absurd known (Int.lt_irrefl manager.nextId)
  | early now later notDue same =>
      subst same
      exact ⟨inside, by simp [fired, notDue]⟩
  | ran now later top rest due queue same =>
      have atTop : top.timerId = timerId → property top := by
        apply inside.each
        rw [queue]
        exact List.mem_cons_self
      refine ⟨⟨wellFormed, ?_, ?_⟩, by simpa [fired, due] using atTop⟩
      · rw [same.nextId]
        exact inside.known
      · intro timer present named
        rcases List.mem_append.mp (same.timerQueue.mem_iff.mp present) with
          again | other
        · obtain ⟨rfl, -⟩ := mem_reschedule again
          exact timeless top _ (atTop named)
        · apply inside.each timer ?_ named
          rw [queue]
          exact List.mem_cons_of_mem top other

/-- What holds of the timers of a known identifier holds of those that run. -/
theorem Each.firings {timerId : Int} {property : Timer Action → Prop}
    (timeless : Timeless property) (inside : manager.Each timerId property)
    {events : List (TimerEvent Action)}
    (keepsOff : ∀ event ∈ events, event.KeepsOff) :
    ∀ timer ∈ manager.firings algorithms events,
      timer.timerId = timerId → property timer := by
  have atStep (state : TimerManager Action) (event : TimerEvent Action)
      (next : TimerManager Action) (member : event ∈ events)
      (inside : state.Each timerId property)
      (stepped : (machine algorithms).step state event = some next) :
      next.Each timerId property ∧ ∀ timer ∈ fired state event next,
        timer.timerId = timerId → property timer :=
    inside.step timeless (keepsOff event member) stepped
  exact Machine.outputs_forall atStep inside

/-! ## A one-shot timer runs once -/

/-- The timer that a step runs is at the top of the queue, and due. -/
theorem ran_of_fired (wellFormed : manager.WellFormed)
    {event : TimerEvent Action} (keepsOff : event.KeepsOff)
    (stepped : (machine algorithms).step manager event = some next)
    {timer : Timer Action} (ran : timer ∈ fired manager event next) :
    fired manager event next = [timer] ∧ next.WellFormed ∧
      ∃ later rest, manager.timerQueue = timer :: rest ∧ next.SameTimers
        { manager with timerQueue := reschedule later timer ++ rest } := by
  obtain ⟨left, moves⟩ := moves_of_step wellFormed keepsOff stepped
  cases moves with
  | called call same => simp [fired] at ran
  | early now later notDue same => simp [fired, notDue] at ran
  | ran now later top rest due queue same =>
      have alone : fired manager (.processExpiryTimer now [] later) next =
          [top] := by simp [fired, due]
      rw [alone] at ran
      obtain rfl := List.mem_singleton.mp ran
      exact ⟨alone, left, later, rest, queue, same⟩

/-- Once a timer of one shot has run, its identifier is gone. -/
theorem each_false_of_fired (wellFormed : manager.WellFormed)
    {event : TimerEvent Action} (keepsOff : event.KeepsOff)
    (stepped : (machine algorithms).step manager event = some next)
    {timer : Timer Action} (ran : timer ∈ fired manager event next)
    (once : timer.callPolicy = .callOnce) :
    next.Each timer.timerId fun _ => False := by
  obtain ⟨-, left, later, rest, queue, same⟩ :=
    ran_of_fired wellFormed keepsOff stepped ran
  have distinct := wellFormed.distinct
  rw [queue, List.map_cons, List.nodup_cons] at distinct
  have known : timer.timerId < manager.nextId := by
    apply wellFormed.below
    rw [queue]
    exact List.mem_cons_self
  refine ⟨left, same.nextId ▸ known, ?_⟩
  intro other present named
  have kept := same.timerQueue.mem_iff.mp present
  simp only [reschedule, once, List.nil_append] at kept
  apply distinct.1
  rw [← named]
  exact List.mem_map_of_mem kept

/-- The policy of a timer that runs stays with its identifier. -/
theorem each_callPolicy_of_fired (wellFormed : manager.WellFormed)
    {event : TimerEvent Action} (keepsOff : event.KeepsOff)
    (stepped : (machine algorithms).step manager event = some next)
    {timer : Timer Action} (ran : timer ∈ fired manager event next) :
    next.Each timer.timerId fun other =>
      other.callPolicy = timer.callPolicy := by
  obtain ⟨-, -, later, rest, queue, -⟩ :=
    ran_of_fired wellFormed keepsOff stepped ran
  have present : timer ∈ manager.timerQueue := by
    rw [queue]
    exact List.mem_cons_self
  have inside : manager.Each timer.timerId fun other =>
      other.callPolicy = timer.callPolicy := by
    refine ⟨wellFormed, wellFormed.below timer present, ?_⟩
    intro other presentOther named
    rw [wellFormed.eq_of_timerId presentOther present named]
  exact (inside.step (fun _ _ same => same) keepsOff stepped).1

/-- In the run from a manager, a timer of one shot runs at most once. -/
theorem firings_once (wellFormed : manager.WellFormed)
    {events : List (TimerEvent Action)}
    (keepsOff : ∀ event ∈ events, event.KeepsOff)
    {timer : Timer Action} (ran : timer ∈ manager.firings algorithms events)
    (once : timer.callPolicy = .callOnce) :
    (manager.firings algorithms events).countP
      (fun other => other.timerId = timer.timerId) = 1 := by
  induction events generalizing manager with
  | nil => cases ran
  | cons event events inductionHypothesis =>
      obtain ⟨keepsOffFirst, keepsOffRest⟩ := List.forall_mem_cons.mp keepsOff
      obtain ⟨next, stepped, left, -⟩ :
          ∃ next, (machine algorithms).step manager event = some next ∧
            next.WellFormed ∧ Moves manager next event :=
        step_spec wellFormed keepsOffFirst
      have split : manager.firings algorithms (event :: events) =
          fired manager event next ++ next.firings algorithms events :=
        Machine.outputs_cons stepped events
      rw [split, List.mem_append] at ran
      rw [split, List.countP_append]
      by_cases first : ∃ other ∈ fired manager event next,
          other.timerId = timer.timerId
      · obtain ⟨other, fires, named⟩ := first
        obtain ⟨alone, -⟩ :=
          ran_of_fired wellFormed keepsOffFirst stepped fires
        have onceOther : other.callPolicy = .callOnce := by
          rcases ran with here | afterwards
          · rw [alone] at here
            rw [← List.mem_singleton.mp here]
            exact once
          · have policies := each_callPolicy_of_fired wellFormed
              keepsOffFirst stepped fires
            rw [← once]
            exact (policies.firings (fun _ _ same => same) keepsOffRest timer
              afterwards named.symm).symm
        have gone := each_false_of_fired wellFormed keepsOffFirst stepped
          fires onceOther
        have nothing : (next.firings algorithms events).countP
            (fun other => other.timerId = timer.timerId) = 0 := by
          apply List.countP_eq_zero.mpr
          intro later present same
          exact gone.firings (fun _ _ impossible => impossible) keepsOffRest
            later present ((of_decide_eq_true same).trans named.symm)
        rw [nothing, alone]
        simp [named]
      · have others : (fired manager event next).countP
            (fun other => other.timerId = timer.timerId) = 0 := by
          apply List.countP_eq_zero.mpr
          intro other present same
          exact first ⟨other, present, of_decide_eq_true same⟩
        have afterwards : timer ∈ next.firings algorithms events :=
          ran.resolve_left fun present => first ⟨timer, present, rfl⟩
        rw [others, Nat.zero_add]
        exact inductionHypothesis left keepsOffRest afterwards

/-! ## A timer stays in the queue -/

/-- The same timer, waiting for another time perhaps. -/
def Timer.Same (timer other : Timer Action) : Prop :=
  other = { timer with expiryTime := other.expiryTime }

/-- A timer stays in the queue unless it is removed or runs its one shot. -/
theorem stays (wellFormed : manager.WellFormed)
    {event : TimerEvent Action} (keepsOff : event.KeepsOff)
    (stepped : (machine algorithms).step manager event = some next)
    {timer : Timer Action} (present : timer ∈ manager.timerQueue)
    (kept : event ≠ .call (.removeTimer timer.timerId))
    (waits : timer ∈ fired manager event next →
      timer.callPolicy = .callFrequently) :
    ∃ other ∈ next.timerQueue, timer.Same other := by
  obtain ⟨-, moves⟩ := moves_of_step wellFormed keepsOff stepped
  cases moves with
  | called call same =>
      refine ⟨timer, same.timerQueue.mem_iff.mpr ?_, rfl⟩
      cases call with
      | registerTimer now caller interval expiryAction callPolicy delay =>
          exact List.mem_cons_of_mem _ present
      | registerFrequentTimer now caller interval expiryAction delay =>
          exact List.mem_cons_of_mem _ present
      | removeTimer timerId =>
          apply List.mem_filter.mpr
          refine ⟨present, decide_eq_true ?_⟩
          rintro rfl
          exact kept rfl
  | early now later notDue same =>
      subst same
      exact ⟨timer, present, rfl⟩
  | ran now later top rest due queue same =>
      rw [queue, List.mem_cons] at present
      rcases present with rfl | waiting
      · have frequent := waits (by simp [fired, due])
        refine ⟨timer.wait later, same.timerQueue.mem_iff.mpr ?_, rfl⟩
        simp [reschedule, frequent]
      · refine ⟨timer, same.timerQueue.mem_iff.mpr ?_, rfl⟩
        exact List.mem_append_right _ waiting

/-- A whole run keeps a timer that is not removed and is frequent or has not
run. -/
theorem stays_run (wellFormed : manager.WellFormed)
    {events : List (TimerEvent Action)}
    (keepsOff : ∀ event ∈ events, event.KeepsOff)
    {last : TimerManager Action}
    (run : (machine algorithms).run manager events = some last)
    {timer : Timer Action} (present : timer ∈ manager.timerQueue)
    (kept : .call (.removeTimer timer.timerId) ∉ events)
    (waits : timer.callPolicy = .callFrequently ∨
      ∀ other ∈ manager.firings algorithms events,
        other.timerId ≠ timer.timerId) :
    ∃ other ∈ last.timerQueue, timer.Same other := by
  induction events generalizing manager timer with
  | nil =>
      cases run
      exact ⟨timer, present, rfl⟩
  | cons event events inductionHypothesis =>
      obtain ⟨keepsOffFirst, keepsOffRest⟩ := List.forall_mem_cons.mp keepsOff
      obtain ⟨next, stepped, later⟩ := Option.bind_eq_some_iff.mp run
      obtain ⟨left, -⟩ := moves_of_step wellFormed keepsOffFirst stepped
      have split : manager.firings algorithms (event :: events) =
          fired manager event next ++ next.firings algorithms events :=
        Machine.outputs_cons stepped events
      rw [split] at waits
      simp only [List.mem_append] at waits
      obtain ⟨other, presentOther, same⟩ := stays wellFormed keepsOffFirst
        stepped present (fun removed => kept (removed ▸ List.mem_cons_self))
        (fun ran => waits.resolve_right fun never =>
          never timer (Or.inl ran) rfl)
      have named : other.timerId = timer.timerId := by rw [same]
      have policy : other.callPolicy = timer.callPolicy := by rw [same]
      obtain ⟨final, presentFinal, sameFinal⟩ :=
        inductionHypothesis left keepsOffRest later presentOther
          (fun removed => kept (named ▸ List.mem_cons_of_mem _ removed))
          (waits.imp (fun frequent => policy.trans frequent)
            fun never later present =>
              named ▸ never later (Or.inr present))
      refine ⟨final, presentFinal, ?_⟩
      rw [Timer.Same, sameFinal, same]

/-! ## Whole runs -/

/-- What a run of the timer manager promises. -/
structure OnSchedule (algorithms : HeapAlgorithms (@timerCompare Action))
    (events : List (TimerEvent Action)) : Prop where
  ends : ∃ last, (machine algorithms).Reaches events last
  /-- A timer that runs is due, and none in the queue expires earlier. -/
  inOrder : ∀ first now calls later second,
    events = first ++ .processExpiryTimer now calls later :: second →
    ∀ manager, (machine algorithms).Reaches first manager →
    ∀ timer, manager.expired now = some timer →
      ¬now.less timer.expiryTime ∧ timer ∈ manager.timerQueue ∧
        ∀ other ∈ manager.timerQueue,
          ¬other.expiryTime.less timer.expiryTime
  once : ∀ timer ∈ init.firings algorithms events,
    timer.callPolicy = .callOnce →
    (init.firings algorithms events).countP
      (fun other => other.timerId = timer.timerId) = 1
  /-- The identifier is one that was handed out before the removal. -/
  removed : ∀ first timerId second,
    events = first ++ .call (.removeTimer timerId) :: second →
    ∀ manager, (machine algorithms).Reaches first manager →
    timerId < manager.nextId →
    ∀ timer ∈ (manager.removeTimer algorithms timerId).firings algorithms
      second, timer.timerId ≠ timerId
  /-- A registered timer is in the queue until it is removed or, where it is
  not frequent, has run. -/
  waiting : ∀ first call second third,
    events = first ++ .call call :: second ++ third →
    ∀ manager, (machine algorithms).Reaches first manager →
    ∀ timer, call.registers manager = some timer →
    .call (.removeTimer timer.timerId) ∉ second →
    (timer.callPolicy = .callFrequently ∨
      ∀ other ∈ (call.perform algorithms manager).firings algorithms second,
        other.timerId ≠ timer.timerId) →
    ∀ last, (machine algorithms).Reaches (first ++ .call call :: second)
      last → ∃ other ∈ last.timerQueue, timer.Same other

variable {events : List (TimerEvent Action)}

theorem wellFormed_of_reaches
    (keepsOff : ∀ event ∈ events, event.KeepsOff)
    (reaches : (machine algorithms).Reaches events manager) :
    manager.WellFormed := by
  have meets : (machine algorithms).StepsMeet
      (fun _ event => event.KeepsOff) events :=
    Machine.StepsMeet.of_forall fun event member _ => keepsOff event member
  have atStep (state : TimerManager Action) (event : TimerEvent Action)
      (next : TimerManager Action) (wellFormed : state.WellFormed)
      (keepsOff : event.KeepsOff)
      (stepped : (machine algorithms).step state event = some next) :
      next.WellFormed :=
    (moves_of_step wellFormed keepsOff stepped).1
  exact meets.invariant wellFormed_init atStep reaches

/-- After its removal no timer of a known identifier is left. -/
theorem each_false_of_removeTimer (wellFormed : manager.WellFormed)
    {timerId : Int} (known : timerId < manager.nextId) :
    (manager.removeTimer algorithms timerId).Each timerId
      fun _ => False where
  wellFormed := wellFormed_removeTimer wellFormed timerId
  known := by rwa [removeTimer_nextId]
  each timer present named := by
    have kept := (removeTimer_perm wellFormed timerId).mem_iff.mp present
    exact of_decide_eq_true (List.mem_filter.mp kept).2 named

/-- Every run in which the actions do not touch the manager is on schedule,
for all intervals and all readings of the clock. -/
theorem onSchedule (keepsOff : ∀ event ∈ events, event.KeepsOff) :
    OnSchedule algorithms events where
  ends := by
    have possible (state : TimerManager Action) (event : TimerEvent Action)
        (member : event ∈ events) (wellFormed : state.WellFormed) :
        ∃ next, (machine algorithms).step state event = some next ∧
          next.WellFormed := by
      obtain ⟨next, stepped, left, -⟩ := step_spec wellFormed
        (keepsOff event member)
      exact ⟨next, stepped, left⟩
    exact Machine.exists_run_of_inside possible wellFormed_init
  inOrder := by
    rintro first now calls later second rfl manager reaches timer due
    obtain ⟨⟨rest, queue⟩, onTime⟩ := expired_eq_some_iff.mp due
    have wellFormed : manager.WellFormed :=
      wellFormed_of_reaches (fun event member =>
        keepsOff event (List.mem_append_left _ member)) reaches
    refine ⟨by simp [onTime], queue ▸ List.mem_cons_self, ?_⟩
    intro other present
    simp [WellFormed.top_least wellFormed.heap queue present]
  once timer ran once := firings_once wellFormed_init keepsOff ran once
  removed := by
    rintro first timerId second rfl manager reaches known timer ran named
    have wellFormed : manager.WellFormed :=
      wellFormed_of_reaches (fun event member =>
        keepsOff event (List.mem_append_left _ member)) reaches
    have gone : (manager.removeTimer algorithms timerId).Each timerId
        fun _ => False := each_false_of_removeTimer wellFormed known
    exact gone.firings (fun _ _ impossible => impossible)
      (fun event member => keepsOff event (by simp [member])) timer ran named
  waiting := by
    rintro first call second third rfl manager reaches timer registers kept
      waits last reachesLast
    have wellFormed : manager.WellFormed :=
      wellFormed_of_reaches (fun event member =>
        keepsOff event (by simp [member])) reaches
    obtain ⟨performed, asked⟩ :
        (call.perform algorithms manager).WellFormed ∧
          (call.perform algorithms manager).SameTimers (call.ask manager) :=
      call.perform_spec wellFormed
    obtain ⟨middle, reachesMiddle, run⟩ :=
      Machine.reaches_append_iff.mp reachesLast
    obtain rfl := reachesMiddle.unique reaches
    exact stays_run performed (fun event member =>
      keepsOff event (by simp [member])) run
      (asked.timerQueue.mem_iff.mpr
        (TimerCall.mem_ask_of_registers registers))
      kept waits

/-- A timer of one shot and a frequent one that expires earlier. -/
def twoTimers : List (TimerEvent Unit) :=
  [.call (.registerTimer ⟨0, 0⟩ "" ⟨3, 0⟩ () .callOnce ⟨0, 0⟩),
    .call (.registerFrequentTimer ⟨0, 0⟩ "" ⟨2, 0⟩ () ⟨0, 0⟩),
    .processExpiryTimer ⟨2, 0⟩ [] ⟨2, 0⟩,
    .processExpiryTimer ⟨3, 0⟩ [] ⟨3, 0⟩]

theorem onSchedule_twoTimers :
    OnSchedule (sortedHeap (strictWeakOrder_timerCompare Unit)) twoTimers ∧
      (init.firings (sortedHeap (strictWeakOrder_timerCompare Unit))
        twoTimers).map Timer.timerId = [2, 1] := by
  constructor
  · apply onSchedule
    intro event member
    simp only [twoTimers, List.mem_cons, List.not_mem_nil, or_false] at member
    rcases member with rfl | rfl | rfl | rfl <;> trivial
  · decide

end TimerManager

end Foundation
end Spaceless
