import Spaceless.Logic.Heap
import Spaceless.Logic.Machine

/-!
# Timer manager

The timer manager keeps its timers in a vector that the heap algorithms of the
standard library arrange by expiry time.  What the action of a timer does to
the manager is a list of calls, each with the clock reading it takes.
-/

namespace Spaceless
namespace Foundation

open Logic

/-- A high resolution time point. -/
structure PreciseTime where
  seconds : Int
  nanoseconds : Int
deriving DecidableEq, Repr

namespace PreciseTime

def nanosecondsOfSecond : Int := 1000000000

/-- Plus operation; one carry at most. -/
protected def add (left right : PreciseTime) : PreciseTime :=
  let seconds := left.seconds + right.seconds
  let nanoseconds := left.nanoseconds + right.nanoseconds
  if nanoseconds ≥ nanosecondsOfSecond then
    { seconds := seconds + 1, nanoseconds := nanoseconds - nanosecondsOfSecond }
  else
    { seconds := seconds, nanoseconds := nanoseconds }

instance : Add PreciseTime := ⟨PreciseTime.add⟩

/-- Less than operation. -/
def less (left right : PreciseTime) : Bool :=
  if left.seconds ≠ right.seconds then
    left.seconds < right.seconds
  else
    left.nanoseconds < right.nanoseconds

/-- Greater than operation. -/
def greater (left right : PreciseTime) : Bool :=
  if left.seconds ≠ right.seconds then
    left.seconds > right.seconds
  else
    left.nanoseconds > right.nanoseconds

theorem less_iff (left right : PreciseTime) :
    left.less right = true ↔ left.seconds < right.seconds ∨
      left.seconds = right.seconds ∧
        left.nanoseconds < right.nanoseconds := by
  unfold less
  split <;> simp <;> omega

theorem greater_eq_less (left right : PreciseTime) :
    left.greater right = right.less left := by
  rw [Bool.eq_iff_iff, less_iff]
  unfold greater
  split <;> simp <;> omega

/-- Of two different time points one is less. -/
theorem eq_of_less_eq_false {left right : PreciseTime}
    (notLess : left.less right = false) (notMore : right.less left = false) :
    left = right := by
  rw [← Bool.not_eq_true, less_iff] at notLess notMore
  have seconds : left.seconds = right.seconds := by omega
  have nanoseconds : left.nanoseconds = right.nanoseconds := by omega
  cases left
  cases right
  simp_all

theorem strictWeakOrder_greater : StrictWeakOrder greater where
  irrefl time := by
    simp [greater_eq_less, ← Bool.not_eq_true, less_iff]
  asymm first second := by
    simp only [greater_eq_less, ← Bool.not_eq_true, less_iff]
    omega
  negTrans first second third := by
    simp only [greater_eq_less, ← Bool.not_eq_true, less_iff]
    omega

end PreciseTime

inductive TimerCallPolicy where
  | callOnce
  | callFrequently
deriving DecidableEq, Repr

namespace TimerManager

structure Timer (Action : Type) where
  timerId : Int
  interval : PreciseTime
  expiryTime : PreciseTime
  expiryAction : Action
  callPolicy : TimerCallPolicy
  caller : String
deriving DecidableEq

/-- The timer waits for its interval from now on. -/
def Timer.wait {Action : Type} (now : PreciseTime) (timer : Timer Action) :
    Timer Action :=
  { timer with expiryTime := now + timer.interval }

/-- The timer that expires first is at the top of the heap. -/
def timerCompare {Action : Type} (left right : Timer Action) : Bool :=
  left.expiryTime.greater right.expiryTime

theorem strictWeakOrder_timerCompare (Action : Type) :
    StrictWeakOrder (@timerCompare Action) where
  irrefl timer := PreciseTime.strictWeakOrder_greater.irrefl timer.expiryTime
  asymm first second :=
    PreciseTime.strictWeakOrder_greater.asymm first.expiryTime
      second.expiryTime
  negTrans first second third :=
    PreciseTime.strictWeakOrder_greater.negTrans first.expiryTime
      second.expiryTime third.expiryTime

end TimerManager

/-- The queue of timers and the identifier of the next one. -/
structure TimerManager (Action : Type) where
  timerQueue : List (TimerManager.Timer Action)
  nextId : Int
deriving DecidableEq

/-- What an action or another caller does to the timer manager, with the
reading of the clock. -/
inductive TimerCall (Action : Type) where
  | registerTimer (now : PreciseTime) (caller : String)
      (interval : PreciseTime) (expiryAction : Action)
      (callPolicy : TimerCallPolicy) (delay : PreciseTime)
  | registerFrequentTimer (now : PreciseTime) (caller : String)
      (interval : PreciseTime) (expiryAction : Action) (delay : PreciseTime)
  | removeTimer (timerId : Int)

namespace TimerManager

variable {Action : Type}

def init : TimerManager Action where
  timerQueue := []
  nextId := 1

/-- The timer that the manager makes for a registration. -/
def newTimer (now : PreciseTime) (caller : String) (interval : PreciseTime)
    (expiryAction : Action) (callPolicy : TimerCallPolicy)
    (delay : PreciseTime) (manager : TimerManager Action) : Timer Action where
  timerId := manager.nextId
  interval := interval
  expiryTime := now + if delay.seconds = 0 then interval else delay
  expiryAction := expiryAction
  callPolicy := callPolicy
  caller := caller

section

variable (algorithms : HeapAlgorithms (@timerCompare Action))

/-- Push a timer to the heap. -/
def push (timer : Timer Action) (manager : TimerManager Action) :
    TimerManager Action :=
  { manager with
    timerQueue := algorithms.pushHeap (manager.timerQueue ++ [timer]) }

/-- Pop the heap. -/
def pop (manager : TimerManager Action) : TimerManager Action :=
  { manager with
    timerQueue := (algorithms.popHeap manager.timerQueue).dropLast }

def registerTimer (now : PreciseTime) (caller : String)
    (interval : PreciseTime) (expiryAction : Action)
    (callPolicy : TimerCallPolicy) (delay : PreciseTime)
    (manager : TimerManager Action) : Int × TimerManager Action :=
  let timer :=
    newTimer now caller interval expiryAction callPolicy delay manager
  (timer.timerId,
    push algorithms timer { manager with nextId := manager.nextId + 1 })

def registerFrequentTimer (now : PreciseTime) (caller : String)
    (interval : PreciseTime) (expiryAction : Action) (delay : PreciseTime)
    (manager : TimerManager Action) : Int × TimerManager Action :=
  registerTimer algorithms now caller interval expiryAction .callFrequently
    delay manager

/-- One element is erased at the place where the removed ones begin. -/
def removeTimer (timerId : Int) (manager : TimerManager Action) :
    TimerManager Action :=
  match algorithms.removeIf (fun timer => timer.timerId == timerId)
      manager.timerQueue with
  | (_, []) => manager
  | (kept, _ :: left) =>
      { manager with timerQueue := algorithms.makeHeap (kept ++ left) }

end

/-- The timer whose action a call at this time runs. -/
def expired (now : PreciseTime) (manager : TimerManager Action) :
    Option (Timer Action) :=
  match manager.timerQueue with
  | [] => none
  | top :: _ => if now.less top.expiryTime then none else some top

end TimerManager

namespace TimerCall

variable {Action : Type}
  (algorithms : HeapAlgorithms (@TimerManager.timerCompare Action))

def perform (manager : TimerManager Action) :
    TimerCall Action → TimerManager Action
  | .registerTimer now caller interval expiryAction callPolicy delay =>
      (manager.registerTimer algorithms now caller interval expiryAction
        callPolicy delay).2
  | .registerFrequentTimer now caller interval expiryAction delay =>
      (manager.registerFrequentTimer algorithms now caller interval
        expiryAction delay).2
  | .removeTimer timerId => manager.removeTimer algorithms timerId

end TimerCall

namespace TimerManager

variable {Action : Type}
  (algorithms : HeapAlgorithms (@timerCompare Action))

/-- Run the action of the top timer when it is due, then pop the heap.  The
action does the given calls; the clock is read before it and, to reschedule a
frequent timer, after it.  Popping an empty vector is undefined. -/
def processExpiryTimer (now : PreciseTime) (calls : List (TimerCall Action))
    (later : PreciseTime) (manager : TimerManager Action) :
    Option (Nat × TimerManager Action) :=
  match manager.expired now with
  | none => some (0, manager)
  | some top =>
      let acted := calls.foldl (TimerCall.perform algorithms) manager
      match acted.timerQueue with
      | [] => none
      | _ :: _ =>
          let popped := acted.pop algorithms
          match top.callPolicy with
          | .callOnce => some (1, popped)
          | .callFrequently =>
              some (1, popped.push algorithms (top.wait later))

end TimerManager

/-- The calls of the program on its timer manager. -/
inductive TimerEvent (Action : Type) where
  | call (call : TimerCall Action)
  | processExpiryTimer (now : PreciseTime) (calls : List (TimerCall Action))
      (later : PreciseTime)

namespace TimerManager

variable {Action : Type}
  (algorithms : HeapAlgorithms (@timerCompare Action))

def step (manager : TimerManager Action) :
    TimerEvent Action → Option (TimerManager Action)
  | .call call => some (call.perform algorithms manager)
  | .processExpiryTimer now calls later =>
      (manager.processExpiryTimer algorithms now calls later).map Prod.snd

/-- The timer manager under any sequence of calls. -/
def machine : Machine (TimerManager Action) (TimerEvent Action) where
  start := init
  step := step algorithms

/-- The timers whose actions a step runs. -/
def fired (manager : TimerManager Action) (event : TimerEvent Action)
    (_ : TimerManager Action) : List (Timer Action) :=
  match event with
  | .call _ => []
  | .processExpiryTimer now _ _ => (manager.expired now).toList

/-- The timers whose actions a run from the manager runs, in order. -/
def firings (manager : TimerManager Action)
    (events : List (TimerEvent Action)) : List (Timer Action) :=
  (machine algorithms).outputs fired manager events

/-! ## The queue is a heap of different timers -/

/-- The vector is a heap, and its timers have identifiers of their own that
were handed out before. -/
structure WellFormed (manager : TimerManager Action) : Prop where
  heap : IsHeap timerCompare manager.timerQueue
  distinct : (manager.timerQueue.map Timer.timerId).Nodup
  below : ∀ timer ∈ manager.timerQueue, timer.timerId < manager.nextId

theorem wellFormed_init : (init : TimerManager Action).WellFormed where
  heap := isHeap_nil _
  distinct := List.nodup_nil
  below := by simp [init]

namespace WellFormed

variable {algorithms} {manager : TimerManager Action}

/-- A timer is known by its identifier. -/
theorem eq_of_timerId (wellFormed : manager.WellFormed)
    {timer other : Timer Action} (present : timer ∈ manager.timerQueue)
    (presentOther : other ∈ manager.timerQueue)
    (same : timer.timerId = other.timerId) : timer = other :=
  List.inj_on_of_nodup_map wellFormed.distinct present presentOther same

/-- No timer expires before the one at the top. -/
theorem top_least (heap : IsHeap timerCompare manager.timerQueue)
    {top : Timer Action} {rest : List (Timer Action)}
    (queue : manager.timerQueue = top :: rest) {other : Timer Action}
    (present : other ∈ manager.timerQueue) :
    other.expiryTime.less top.expiryTime = false := by
  rw [queue] at heap present
  have least := heap.front (strictWeakOrder_timerCompare Action) present
  rwa [timerCompare, PreciseTime.greater_eq_less] at least

/-- The manager with another heap of the same timers. -/
theorem of_perm {queue timers : List (Timer Action)} {nextId : Int}
    (heap : IsHeap timerCompare queue) (same : queue.Perm timers)
    (distinct : (timers.map Timer.timerId).Nodup)
    (below : ∀ timer ∈ timers, timer.timerId < nextId) :
    WellFormed { timerQueue := queue, nextId := nextId } where
  heap := heap
  distinct := (same.map Timer.timerId).nodup_iff.mpr distinct
  below timer present := below timer (same.mem_iff.mp present)

end WellFormed

/-! ## What the calls do to the queue -/

section

variable {algorithms} {manager next : TimerManager Action}

theorem push_perm (wellFormed : manager.WellFormed) (timer : Timer Action) :
    (manager.push algorithms timer).timerQueue.Perm
      (timer :: manager.timerQueue) :=
  (algorithms.pushHeap_perm manager.timerQueue timer wellFormed.heap).trans
    (List.perm_append_singleton timer manager.timerQueue)

/-- A timer with an identifier that no other timer has may be pushed. -/
theorem wellFormed_push (wellFormed : manager.WellFormed)
    {timer : Timer Action} (below : timer.timerId < manager.nextId)
    (absent : ∀ other ∈ manager.timerQueue,
      other.timerId ≠ timer.timerId) :
    (manager.push algorithms timer).WellFormed := by
  apply WellFormed.of_perm
    (algorithms.pushHeap_isHeap manager.timerQueue timer wellFormed.heap)
    (push_perm wellFormed timer)
  · rw [List.map_cons, List.nodup_cons]
    refine ⟨?_, wellFormed.distinct⟩
    intro present
    obtain ⟨other, presentOther, same⟩ := List.mem_map.mp present
    exact absent other presentOther same
  · exact List.forall_mem_cons.mpr ⟨below, wellFormed.below⟩

/-- The pop removes the top timer. -/
theorem pop_perm (wellFormed : manager.WellFormed) {top : Timer Action}
    {rest : List (Timer Action)}
    (queue : manager.timerQueue = top :: rest) :
    (manager.pop algorithms).timerQueue.Perm rest := by
  have heap : IsHeap timerCompare (top :: rest) := queue ▸ wellFormed.heap
  rw [pop, queue]
  exact (algorithms.dropLast_popHeap heap).1

theorem wellFormed_pop (wellFormed : manager.WellFormed)
    {top : Timer Action} {rest : List (Timer Action)}
    (queue : manager.timerQueue = top :: rest) :
    (manager.pop algorithms).WellFormed := by
  have heap : IsHeap timerCompare (top :: rest) := queue ▸ wellFormed.heap
  have left : IsHeap timerCompare (manager.pop algorithms).timerQueue := by
    rw [pop, queue]
    exact (algorithms.dropLast_popHeap heap).2
  apply WellFormed.of_perm left (pop_perm wellFormed queue)
  · have distinct := wellFormed.distinct
    rw [queue, List.map_cons] at distinct
    exact distinct.of_cons
  · intro timer present
    apply wellFormed.below
    rw [queue]
    exact List.mem_cons_of_mem top present

/-- Where identifiers are different, at most one timer is removed, and the
element that is erased is the only one left behind. -/
theorem removeTimer_perm (wellFormed : manager.WellFormed) (timerId : Int) :
    (manager.removeTimer algorithms timerId).timerQueue.Perm
      (manager.timerQueue.filter fun timer => timer.timerId ≠ timerId) := by
  have kept := algorithms.removeIf_kept
    (fun timer => timer.timerId == timerId) manager.timerQueue
  have left := algorithms.removeIf_left
    (fun timer => timer.timerId == timerId) manager.timerQueue
  have few : manager.timerQueue.countP
      (fun timer => timer.timerId == timerId) ≤ 1 := by
    have once := List.nodup_iff_count_le_one.mp wellFormed.distinct timerId
    rw [List.count, List.countP_map] at once
    exact once
  have others : (manager.timerQueue.filter fun timer =>
      !(timer.timerId == timerId)) =
      manager.timerQueue.filter fun timer => timer.timerId ≠ timerId := by
    apply List.filter_congr
    intro timer _
    rw [decide_not, beq_eq_decide]
  unfold removeTimer
  split
  · next removed =>
    rw [removed] at left
    have none := List.countP_eq_zero.mp left.symm
    rw [List.filter_eq_self.mpr]
    intro timer present
    simpa using none timer present
  · next removed =>
    rw [removed] at left kept
    have nothing := List.length_eq_zero_iff.mp
      (Nat.le_zero.mp (Nat.le_of_succ_le_succ (left.symm ▸ few)))
    rw [← others, ← kept, nothing, List.append_nil]
    exact algorithms.makeHeap_perm _

theorem removeTimer_nextId (timerId : Int) :
    (manager.removeTimer algorithms timerId).nextId = manager.nextId := by
  unfold removeTimer
  split <;> rfl

theorem wellFormed_removeTimer (wellFormed : manager.WellFormed)
    (timerId : Int) : (manager.removeTimer algorithms timerId).WellFormed where
  heap := by
    unfold removeTimer
    split
    · exact wellFormed.heap
    · exact algorithms.makeHeap_isHeap _
  distinct := by
    apply ((removeTimer_perm wellFormed timerId).map
      Timer.timerId).nodup_iff.mpr
    exact wellFormed.distinct.sublist (List.filter_sublist.map Timer.timerId)
  below := by
    intro timer present
    rw [removeTimer_nextId]
    have kept := (removeTimer_perm wellFormed timerId).mem_iff.mp present
    exact wellFormed.below timer (List.mem_filter.mp kept).1

end

end TimerManager

/-! ## Calls -/

namespace TimerCall

variable {Action : Type}

/-- The timer that a call registers. -/
def registers (manager : TimerManager Action) :
    TimerCall Action → Option (TimerManager.Timer Action)
  | .registerTimer now caller interval expiryAction callPolicy delay =>
      some (TimerManager.newTimer now caller interval expiryAction callPolicy
        delay manager)
  | .registerFrequentTimer now caller interval expiryAction delay =>
      some (TimerManager.newTimer now caller interval expiryAction
        .callFrequently delay manager)
  | .removeTimer _ => none

/-- What a call asks for, on a queue in any order. -/
def ask (manager : TimerManager Action) :
    TimerCall Action → TimerManager Action
  | .removeTimer timerId =>
      { manager with
        timerQueue := manager.timerQueue.filter fun timer =>
          timer.timerId ≠ timerId }
  | call =>
      { timerQueue := (call.registers manager).toList ++ manager.timerQueue
        nextId := manager.nextId + 1 }

end TimerCall

namespace TimerManager

variable {Action : Type}

/-- The same timers in some order, and the same next identifier. -/
structure SameTimers (first second : TimerManager Action) : Prop where
  timerQueue : first.timerQueue.Perm second.timerQueue
  nextId : first.nextId = second.nextId

theorem SameTimers.trans {first second third : TimerManager Action}
    (same : first.SameTimers second) (later : second.SameTimers third) :
    first.SameTimers third where
  timerQueue := same.timerQueue.trans later.timerQueue
  nextId := same.nextId.trans later.nextId

variable {algorithms : HeapAlgorithms (@timerCompare Action)}

/-- A new timer enters a queue without its identifier. -/
theorem registerTimer_spec {manager : TimerManager Action}
    (wellFormed : manager.WellFormed) {now : PreciseTime} {caller : String}
    {interval : PreciseTime} {expiryAction : Action}
    {callPolicy : TimerCallPolicy} {delay : PreciseTime} :
    let timer :=
      newTimer now caller interval expiryAction callPolicy delay manager
    let registered := (manager.registerTimer algorithms now caller interval
      expiryAction callPolicy delay).2
    registered.WellFormed ∧ registered.SameTimers
      { timerQueue := timer :: manager.timerQueue
        nextId := manager.nextId + 1 } := by
  intro timer registered
  have raised : WellFormed { manager with nextId := manager.nextId + 1 } := {
    heap := wellFormed.heap
    distinct := wellFormed.distinct
    below := fun timer present => by
      have below := wellFormed.below timer present
      exact Int.lt_add_one_of_le (Int.le_of_lt below) }
  constructor
  · apply wellFormed_push raised
    · exact Int.lt_succ manager.nextId
    · intro other present
      exact Int.ne_of_lt (wellFormed.below other present)
  · exact ⟨push_perm raised timer, rfl⟩

end TimerManager

namespace TimerCall

open TimerManager

variable {Action : Type}
  {algorithms : HeapAlgorithms (@timerCompare Action)}

/-- A call does what it asks for. -/
theorem perform_spec {manager : TimerManager Action}
    (wellFormed : manager.WellFormed) (call : TimerCall Action) :
    (call.perform algorithms manager).WellFormed ∧
      (call.perform algorithms manager).SameTimers (call.ask manager) := by
  cases call with
  | registerTimer now caller interval expiryAction callPolicy delay =>
      exact registerTimer_spec wellFormed
  | registerFrequentTimer now caller interval expiryAction delay =>
      exact registerTimer_spec wellFormed
  | removeTimer timerId =>
      exact ⟨wellFormed_removeTimer wellFormed timerId,
        removeTimer_perm wellFormed timerId, removeTimer_nextId timerId⟩

/-- A call registers no timer under a known identifier. -/
theorem mem_ask {manager : TimerManager Action} {call : TimerCall Action}
    {timer : Timer Action}
    (present : timer ∈ (call.ask manager).timerQueue) :
    timer ∈ manager.timerQueue ∨ timer.timerId = manager.nextId := by
  cases call with
  | removeTimer timerId => exact Or.inl (List.mem_filter.mp present).1
  | registerTimer now caller interval expiryAction callPolicy delay =>
      rcases List.mem_cons.mp present with rfl | before
      · exact Or.inr rfl
      · exact Or.inl before
  | registerFrequentTimer now caller interval expiryAction delay =>
      rcases List.mem_cons.mp present with rfl | before
      · exact Or.inr rfl
      · exact Or.inl before

theorem nextId_le_ask (call : TimerCall Action)
    (manager : TimerManager Action) :
    manager.nextId ≤ (call.ask manager).nextId := by
  cases call with
  | removeTimer timerId => exact Int.le_refl _
  | registerTimer now caller interval expiryAction callPolicy delay =>
      exact Int.le_of_lt (Int.lt_succ manager.nextId)
  | registerFrequentTimer now caller interval expiryAction delay =>
      exact Int.le_of_lt (Int.lt_succ manager.nextId)

theorem mem_ask_of_registers {manager : TimerManager Action}
    {call : TimerCall Action} {timer : Timer Action}
    (registers : call.registers manager = some timer) :
    timer ∈ (call.ask manager).timerQueue := by
  cases call with
  | removeTimer timerId => cases registers
  | registerTimer now caller interval expiryAction callPolicy delay =>
      cases registers
      exact List.mem_cons_self
  | registerFrequentTimer now caller interval expiryAction delay =>
      cases registers
      exact List.mem_cons_self

theorem registers_nextId {first second : TimerManager Action}
    (same : first.nextId = second.nextId) (call : TimerCall Action) :
    call.registers first = call.registers second := by
  cases call <;> simp [registers, newTimer, same]

/-- What is asked for does not depend on the order of the queue. -/
theorem ask_sameTimers {first second : TimerManager Action}
    (same : first.SameTimers second) (call : TimerCall Action) :
    (call.ask first).SameTimers (call.ask second) := by
  have timers := registers_nextId same.nextId call
  have next : first.nextId + 1 = second.nextId + 1 := by rw [same.nextId]
  cases call with
  | registerTimer now caller interval expiryAction callPolicy delay =>
      refine ⟨?_, next⟩
      simp only [ask, timers]
      exact same.timerQueue.append_left _
  | registerFrequentTimer now caller interval expiryAction delay =>
      refine ⟨?_, next⟩
      simp only [ask, timers]
      exact same.timerQueue.append_left _
  | removeTimer timerId =>
      exact ⟨same.timerQueue.filter _, same.nextId⟩

/-- A list of calls does what its calls ask for, one after the other. -/
theorem foldl_perform_spec (calls : List (TimerCall Action))
    {manager other : TimerManager Action} (wellFormed : manager.WellFormed)
    (same : manager.SameTimers other) :
    (calls.foldl (perform algorithms) manager).WellFormed ∧
      (calls.foldl (perform algorithms) manager).SameTimers
        (calls.foldl ask other) := by
  induction calls generalizing manager other with
  | nil => exact ⟨wellFormed, same⟩
  | cons call calls inductionHypothesis =>
      obtain ⟨performed, asked⟩ := perform_spec wellFormed call
      exact inductionHypothesis performed
        (asked.trans (ask_sameTimers same call))

end TimerCall

/-! ## One call of the timer processing -/

namespace TimerManager

variable {Action : Type}
  {algorithms : HeapAlgorithms (@timerCompare Action)}
  {manager next : TimerManager Action} {now later : PreciseTime}

theorem expired_eq_some_iff {top : Timer Action} :
    manager.expired now = some top ↔
      (∃ rest, manager.timerQueue = top :: rest) ∧
        now.less top.expiryTime = false := by
  unfold expired
  cases manager.timerQueue with
  | nil => simp
  | cons front rest =>
      by_cases early : now.less front.expiryTime = true
      · simp only [early, if_true, List.cons.injEq]
        constructor
        · intro impossible
          cases impossible
        · rintro ⟨⟨_, rfl, -⟩, due⟩
          rw [early] at due
          cases due
      · simp only [early, Bool.false_eq_true, if_false, Option.some.injEq,
          List.cons.injEq]
        constructor
        · rintro rfl
          exact ⟨⟨rest, rfl, rfl⟩, by simpa using early⟩
        · rintro ⟨⟨_, rfl, -⟩, -⟩
          rfl

/-- The timer after its action: a frequent timer waits for its interval. -/
def reschedule (later : PreciseTime) (top : Timer Action) :
    List (Timer Action) :=
  match top.callPolicy with
  | .callOnce => []
  | .callFrequently => [top.wait later]

theorem mem_reschedule {top timer : Timer Action}
    (present : timer ∈ reschedule later top) :
    timer = top.wait later ∧ top.callPolicy = .callFrequently := by
  unfold reschedule at present
  cases policy : top.callPolicy with
  | callOnce =>
      rw [policy] at present
      cases present
  | callFrequently =>
      rw [policy] at present
      exact ⟨List.mem_singleton.mp present, rfl⟩

/-- The pop removes the timer that is at the top after the action. -/
theorem processExpiryTimer_perm (wellFormed : manager.WellFormed)
    {top : Timer Action} (due : manager.expired now = some top)
    {calls : List (TimerCall Action)} {front : Timer Action}
    {rest : List (Timer Action)}
    (queue : (calls.foldl (TimerCall.perform algorithms)
      manager).timerQueue = front :: rest) :
    ∃ after, manager.processExpiryTimer algorithms now calls later =
        some (1, after) ∧ after.timerQueue.Perm (reschedule later top ++ rest) ∧
      after.nextId = (calls.foldl (TimerCall.perform algorithms)
        manager).nextId := by
  obtain ⟨acted, -⟩ := TimerCall.foldl_perform_spec calls wellFormed
    ⟨List.Perm.refl manager.timerQueue, rfl⟩
  rw [processExpiryTimer, due]
  simp only [queue]
  generalize calls.foldl (TimerCall.perform algorithms) manager = after
    at queue acted
  have popped : (after.pop algorithms).timerQueue.Perm rest :=
    pop_perm acted queue
  have left : (after.pop algorithms).WellFormed := wellFormed_pop acted queue
  unfold reschedule
  cases top.callPolicy with
  | callOnce => exact ⟨_, rfl, popped, rfl⟩
  | callFrequently =>
      exact ⟨_, rfl, (push_perm left _).trans (popped.cons _), rfl⟩

/-- The heap stays one whatever the action does, and a timer that is still at
the top after its action keeps its identifier for itself. -/
theorem wellFormed_processExpiryTimer (wellFormed : manager.WellFormed)
    {top : Timer Action} (due : manager.expired now = some top)
    {calls : List (TimerCall Action)} {rest : List (Timer Action)}
    (queue : (calls.foldl (TimerCall.perform algorithms)
      manager).timerQueue = top :: rest)
    {count : Nat} {after : TimerManager Action}
    (processed : manager.processExpiryTimer algorithms now calls later =
      some (count, after)) : after.WellFormed := by
  obtain ⟨acted, -⟩ := TimerCall.foldl_perform_spec calls wellFormed
    ⟨List.Perm.refl manager.timerQueue, rfl⟩
  rw [processExpiryTimer, due] at processed
  simp only [queue] at processed
  generalize calls.foldl (TimerCall.perform algorithms) manager = middle
    at queue acted processed
  have popped : (middle.pop algorithms).timerQueue.Perm rest :=
    pop_perm acted queue
  have left : (middle.pop algorithms).WellFormed := wellFormed_pop acted queue
  cases policy : top.callPolicy with
  | callOnce =>
      rw [policy] at processed
      cases processed
      exact left
  | callFrequently =>
      rw [policy] at processed
      cases processed
      have distinct := acted.distinct
      rw [queue, List.map_cons, List.nodup_cons] at distinct
      apply wellFormed_push left
      · have present : top ∈ middle.timerQueue := by
          rw [queue]
          exact List.mem_cons_self
        exact acted.below top present
      · intro other present same
        have named : other.timerId = top.timerId := same
        apply distinct.1
        rw [← named]
        exact List.mem_map_of_mem (popped.mem_iff.mp present)

end TimerManager

end Foundation
end Spaceless
