import Spaceless.Foundation.Timer

/-!
# Actions that touch the timer manager

The action of a timer runs between the reading of the top timer and the pop of
the heap.  The pop removes the timer that ran exactly when it is still at the
top after the calls of its action.
-/

namespace Spaceless
namespace Foundation

open Logic

variable {Action : Type}

namespace TimerManager

/-- The timers that a call should leave, of those that the action of the top
timer left: a timer of one shot is gone, and a frequent timer that was not
removed waits for its next time. -/
def settle (later : PreciseTime) (top : Timer Action)
    (timers : List (Timer Action)) : List (Timer Action) :=
  match top.callPolicy with
  | .callOnce => timers.filter fun timer => timer.timerId ≠ top.timerId
  | .callFrequently =>
      timers.map fun timer =>
        if timer.timerId = top.timerId then top.wait later else timer

variable (algorithms : HeapAlgorithms (@timerCompare Action))

/-- A call that runs the action of a timer ends, and leaves the timers that the
action left, with the one that ran settled. -/
def Settles (manager : TimerManager Action) : TimerEvent Action → Prop
  | .call _ => True
  | .processExpiryTimer now calls later =>
      ∀ top, manager.expired now = some top →
        ∃ after, manager.processExpiryTimer algorithms now calls later =
            some (1, after) ∧
          after.timerQueue.Perm
            (settle later top (calls.foldl TimerCall.ask manager).timerQueue)

/-- The timer that runs is still at the top after its action. -/
def StaysOnTop (manager : TimerManager Action) : TimerEvent Action → Prop
  | .call _ => True
  | .processExpiryTimer now calls _ =>
      ∀ top, manager.expired now = some top →
        (calls.foldl (TimerCall.perform algorithms)
          manager).timerQueue.head? = some top

variable {algorithms} {manager next : TimerManager Action}

/-- Calls give no known identifier to another timer. -/
theorem mem_of_foldl_ask {calls : List (TimerCall Action)}
    {timer : Timer Action} (known : timer.timerId < manager.nextId)
    (present : timer ∈ (calls.foldl TimerCall.ask manager).timerQueue) :
    timer ∈ manager.timerQueue := by
  induction calls generalizing manager with
  | nil => exact present
  | cons call calls inductionHypothesis =>
      have grown := call.nextId_le_ask manager
      rcases TimerCall.mem_ask (inductionHypothesis
        (Int.lt_of_lt_of_le known grown) present) with before | new
      · exact before
      · exact absurd known (new ▸ Int.lt_irrefl manager.nextId)

theorem settle_perm (later : PreciseTime) (top : Timer Action)
    {timers others : List (Timer Action)} (same : timers.Perm others) :
    (settle later top timers).Perm (settle later top others) := by
  unfold settle
  cases top.callPolicy with
  | callOnce => exact same.filter _
  | callFrequently => exact same.map _

/-- Where the timer that ran is one of the timers, it alone changes. -/
theorem settle_cons (later : PreciseTime) {top : Timer Action}
    {rest : List (Timer Action)}
    (alone : ∀ other ∈ rest, other.timerId ≠ top.timerId) :
    settle later top (top :: rest) = reschedule later top ++ rest := by
  unfold settle reschedule
  cases top.callPolicy with
  | callOnce =>
      rw [List.filter_cons_of_neg (by simp), List.filter_eq_self.mpr]
      · rfl
      · intro other present
        exact decide_eq_true (alone other present)
  | callFrequently =>
      have kept : rest.map (fun timer =>
          if timer.timerId = top.timerId then top.wait later else timer) =
          rest := by
        rw [List.map_congr_left fun other present =>
          if_neg (alone other present), List.map_id']
      rw [List.map_cons, kept, if_pos rfl]
      rfl

/-- Another timer is not touched. -/
theorem mem_settle {later : PreciseTime} {top timer : Timer Action}
    {timers : List (Timer Action)} (present : timer ∈ timers)
    (other : timer.timerId ≠ top.timerId) :
    timer ∈ settle later top timers := by
  unfold settle
  cases top.callPolicy with
  | callOnce => exact List.mem_filter.mpr ⟨present, decide_eq_true other⟩
  | callFrequently => exact List.mem_map.mpr ⟨timer, present, if_neg other⟩

/-- The pop takes the timer that ran exactly when it is still at the top. -/
theorem settles_iff_staysOnTop (wellFormed : manager.WellFormed)
    (event : TimerEvent Action) :
    manager.Settles algorithms event ↔
      manager.StaysOnTop algorithms event := by
  cases event with
  | call call => exact Iff.rfl
  | processExpiryTimer now calls later =>
      apply forall_congr'
      intro top
      apply imp_congr_right
      intro due
      obtain ⟨acted, asked⟩ :
          (calls.foldl (TimerCall.perform algorithms) manager).WellFormed ∧
            (calls.foldl (TimerCall.perform algorithms) manager).SameTimers
              (calls.foldl TimerCall.ask manager) :=
        TimerCall.foldl_perform_spec calls wellFormed
          ⟨List.Perm.refl manager.timerQueue, rfl⟩
      cases queue : (calls.foldl (TimerCall.perform algorithms)
          manager).timerQueue with
      | nil =>
          -- the pop of an empty vector
          apply iff_of_false
          · rintro ⟨after, processed, -⟩
            simp [processExpiryTimer, due, queue] at processed
          · simp
      | cons front rest =>
          obtain ⟨after, processed, popped, -⟩ :
              ∃ after, manager.processExpiryTimer algorithms now calls later =
                  some (1, after) ∧
                after.timerQueue.Perm (reschedule later top ++ rest) ∧
                after.nextId = (calls.foldl (TimerCall.perform algorithms)
                  manager).nextId :=
            processExpiryTimer_perm wellFormed due queue
          have left := settle_perm later top asked.timerQueue.symm
          have distinct := acted.distinct
          rw [queue] at left
          rw [queue, List.map_cons, List.nodup_cons] at distinct
          have alone (other : Timer Action) (present : other ∈ rest) :
              other.timerId ≠ front.timerId := fun same =>
            distinct.1 (same ▸ List.mem_map_of_mem present)
          rw [List.head?_cons, Option.some.injEq]
          constructor
          · rintro ⟨other, again, settled⟩
            cases processed.symm.trans again
            have same : front.timerId = top.timerId := by
              by_contra differs
              have kept : front ∈ reschedule later top ++ rest :=
                popped.mem_iff.mp (settled.mem_iff.mpr (left.mem_iff.mpr
                  (mem_settle List.mem_cons_self differs)))
              rcases List.mem_append.mp kept with rescheduled | present
              · exact differs (by rw [(mem_reschedule rescheduled).1]; rfl)
              · exact alone front present rfl
            obtain ⟨⟨others, before⟩, -⟩ := expired_eq_some_iff.mp due
            have atTop : top ∈ manager.timerQueue := by
              rw [before]
              exact List.mem_cons_self
            have known : front.timerId < manager.nextId := by
              rw [same]
              exact wellFormed.below top atTop
            have present : front ∈ manager.timerQueue := by
              apply mem_of_foldl_ask known
              apply asked.timerQueue.mem_iff.mp
              rw [queue]
              exact List.mem_cons_self
            exact wellFormed.eq_of_timerId present atTop same
          · rintro rfl
            refine ⟨after, processed, ?_⟩
            rw [settle_cons later alone] at left
            exact popped.trans left.symm

/-- In every run of the timer manager, whatever the actions register and
remove, each call settles the timer that it runs exactly when that timer is
still at the top of the queue after its action. -/
theorem settles_iff_staysOnTop_run (events : List (TimerEvent Action)) :
    (machine algorithms).StepsMeet (Settles algorithms) events ↔
      (machine algorithms).StepsMeet (StaysOnTop algorithms) events := by
  refine Machine.stepsMeet_iff WellFormed wellFormed_init ?_
    (fun manager event wellFormed =>
      settles_iff_staysOnTop wellFormed event) events
  intro manager event next wellFormed onTop stepped
  cases event with
  | call call =>
      cases stepped
      exact (call.perform_spec wellFormed).1
  | processExpiryTimer now calls later =>
      obtain ⟨⟨count, after⟩, processed, rfl⟩ :=
        Option.map_eq_some_iff.mp stepped
      cases due : manager.expired now with
      | none =>
          rw [processExpiryTimer, due] at processed
          cases processed
          exact wellFormed
      | some top =>
          obtain ⟨rest, queue⟩ := List.head?_eq_some_iff.mp (onTop top due)
          exact wellFormed_processExpiryTimer wellFormed due queue processed

/-- Where no other timer expires at the same time, the timer stays at the top
when its action neither removes it nor leaves a timer that expires earlier. -/
theorem staysOnTop_iff (wellFormed : manager.WellFormed)
    {now later : PreciseTime} {top : Timer Action}
    (due : manager.expired now = some top)
    {calls : List (TimerCall Action)}
    (apart : ∀ other ∈ (calls.foldl TimerCall.ask manager).timerQueue,
      other.expiryTime = top.expiryTime → other = top) :
    manager.StaysOnTop algorithms (.processExpiryTimer now calls later) ↔
      top ∈ (calls.foldl TimerCall.ask manager).timerQueue ∧
        ∀ other ∈ (calls.foldl TimerCall.ask manager).timerQueue,
          other.expiryTime.less top.expiryTime = false := by
  obtain ⟨acted, asked⟩ :
      (calls.foldl (TimerCall.perform algorithms) manager).WellFormed ∧
        (calls.foldl (TimerCall.perform algorithms) manager).SameTimers
          (calls.foldl TimerCall.ask manager) :=
    TimerCall.foldl_perform_spec calls wellFormed
      ⟨List.Perm.refl manager.timerQueue, rfl⟩
  have same (timer : Timer Action) :
      timer ∈ (calls.foldl TimerCall.ask manager).timerQueue ↔
        timer ∈ (calls.foldl (TimerCall.perform algorithms)
          manager).timerQueue := asked.timerQueue.mem_iff.symm
  simp only [same] at apart ⊢
  simp only [StaysOnTop, due, Option.some.injEq, forall_eq']
  cases queue : (calls.foldl (TimerCall.perform algorithms)
      manager).timerQueue with
  | nil => simp
  | cons front rest =>
      rw [queue] at apart
      have least (other : Timer Action) (present : other ∈ front :: rest) :
          other.expiryTime.less front.expiryTime = false :=
        WellFormed.top_least acted.heap queue (queue ▸ present)
      rw [List.head?_cons, Option.some.injEq]
      constructor
      · rintro rfl
        exact ⟨List.mem_cons_self, least⟩
      · rintro ⟨present, first⟩
        exact apart front List.mem_cons_self
          (PreciseTime.eq_of_less_eq_false
            (first front List.mem_cons_self) (least top present))

/-- Two timers, of which the first is due. -/
def twoWaiting : List (TimerEvent Unit) :=
  [.call (.registerTimer ⟨0, 0⟩ "" ⟨1, 0⟩ () .callOnce ⟨0, 0⟩),
    .call (.registerTimer ⟨0, 0⟩ "" ⟨9, 0⟩ () .callOnce ⟨0, 0⟩)]

/-- The action of the first timer removes it; the pop takes the timer that is
not due. -/
theorem not_settles_always :
    ¬∀ events, (machine (sortedHeap (strictWeakOrder_timerCompare
      Unit))).StepsMeet (Settles (sortedHeap (strictWeakOrder_timerCompare
        Unit))) events := by
  intro always
  have settles := always (twoWaiting ++
    [.processExpiryTimer ⟨1, 0⟩ [.removeTimer 1] ⟨1, 0⟩]) twoWaiting
    _ [] rfl _ rfl
  obtain ⟨after, processed, settled⟩ := settles _ rfl
  cases processed
  exact absurd settled.length_eq (by decide)

end TimerManager

end Foundation
end Spaceless
