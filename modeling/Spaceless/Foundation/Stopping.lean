import Spaceless.Foundation.Lifecycle

/-!
# When the scheduler returns

`run_state` follows the worker up to one step: a `STOPPING` that is stored
after the worker has stored `STOPPED` stays for ever.  The invariant of the
process says what a thread knows of the shared state at its place in the code;
from it follows which schedules bring `Scheduler::start` to its end.
-/

namespace Spaceless
namespace Foundation

open Logic Filter

/-- The worker has stored `STARTED`. -/
def WorkerPlace.Entered (place : WorkerPlace) : Prop :=
  place ≠ .absent ∧ place ≠ .entering

/-! ## The shared state -/

namespace Shared

variable {shared next : Shared}

/-- The flags that the worker can meet at its place. -/
def Placed (shared : Shared) : Prop :=
  match shared.worker with
  | .absent =>
      (shared.runState = .stopped ∨ shared.runState = .starting) ∧
        shared.stopFlag = false
  | .entering => shared.runState = .starting ∧ shared.stopFlag = false
  | .testing | .working =>
      shared.runState = .started ∨
        shared.runState = .stopping ∧ shared.stopFlag = true
  | .leaving =>
      (shared.runState = .started ∨ shared.runState = .stopping) ∧
        shared.stopFlag = true
  | .ended =>
      (shared.runState = .stopped ∨ shared.runState = .stopping) ∧
        shared.stopFlag = true

/-- What no step takes back. -/
structure Onward (shared next : Shared) : Prop where
  entered : shared.worker.Entered → next.worker.Entered
  present : shared.worker ≠ .absent → next.worker ≠ .absent
  ended : shared.worker = .ended → next.worker = .ended
  raised : shared.stopFlag = true → next.stopFlag = true
  calls : shared.networkCalls <+: next.networkCalls

theorem runWorker_onward (shared : Shared) :
    shared.Onward shared.runWorker := by
  rcases shared with ⟨runState, stopFlag, networkCalls, worker, iterations⟩
  cases worker with
  | testing => cases stopFlag <;> constructor <;>
      simp [runWorker, WorkerPlace.Entered]
  | absent | entering | working | leaving | ended =>
      constructor <;> simp [runWorker, WorkerPlace.Entered]

theorem Placed.runWorker (placed : shared.Placed) :
    shared.runWorker.Placed := by
  rcases shared with ⟨runState, stopFlag, networkCalls, worker, iterations⟩
  cases worker with
  | absent => exact placed
  | entering => exact Or.inl rfl
  | testing =>
      cases stopFlag with
      | false => exact placed
      | true => exact ⟨placed.imp id And.left, rfl⟩
  | working => exact placed
  | leaving => exact ⟨Or.inl rfl, placed.2⟩
  | ended => exact placed

theorem runWorker_stopFlag (shared : Shared) :
    shared.runWorker.stopFlag = shared.stopFlag := by
  rcases shared with ⟨runState, stopFlag, networkCalls, worker, iterations⟩
  cases worker <;> cases stopFlag <;> rfl

/-- What the steps of the other threads do to the shared state. -/
structure Beside (shared next : Shared) : Prop where
  placed : next.Placed
  worker : next.worker = shared.worker
  runState : next.runState = shared.runState ∨
    shared.worker.Entered ∧ next.runState = .stopping
  raised : shared.stopFlag = true → next.stopFlag = true
  calls : shared.networkCalls <+: next.networkCalls

theorem Beside.onward (beside : shared.Beside next) : shared.Onward next where
  entered entered := beside.worker ▸ entered
  present present := beside.worker ▸ present
  ended ended := beside.worker.trans ended
  raised := beside.raised
  calls := beside.calls

theorem Onward.halted (onward : shared.Onward next)
    (halted : shared.NetworkStopped) : next.NetworkStopped :=
  onward.calls.subset halted

theorem Placed.beside (placed : shared.Placed) : shared.Beside shared :=
  ⟨placed, rfl, Or.inl rfl, id, List.prefix_rfl⟩

/-- The calls of the reactor do not matter to the worker. -/
theorem Placed.callReactor (placed : shared.Placed) (call : ReactorCall) :
    shared.Beside (shared.callReactor call) :=
  ⟨placed, rfl, Or.inl rfl, id, List.prefix_append _ _⟩

theorem callReactor_stop (shared : Shared) :
    (shared.callReactor .stop).NetworkStopped :=
  List.mem_append_right _ List.mem_cons_self

/-- `stop_flag = true`, once the worker has stored `STARTED`. -/
theorem Placed.raise (placed : shared.Placed)
    (entered : shared.worker.Entered) :
    shared.Beside { shared with stopFlag := true } := by
  refine ⟨?_, rfl, Or.inl rfl, fun _ => rfl, List.prefix_rfl⟩
  rcases shared with ⟨runState, stopFlag, networkCalls, worker, iterations⟩
  cases worker with
  | absent => exact absurd rfl entered.1
  | entering => exact absurd rfl entered.2
  | testing | working => exact placed.imp id fun marked => ⟨marked.1, rfl⟩
  | leaving | ended => exact ⟨placed.1, rfl⟩

/-- `run_state = STOPPING`, once the flag is up. -/
theorem Placed.mark (placed : shared.Placed)
    (entered : shared.worker.Entered) (raised : shared.stopFlag = true) :
    shared.Beside { shared with runState := .stopping } := by
  refine ⟨?_, rfl, Or.inr ⟨entered, rfl⟩, id, List.prefix_rfl⟩
  rcases shared with ⟨runState, stopFlag, networkCalls, worker, iterations⟩
  cases worker with
  | absent => exact absurd rfl entered.1
  | entering => exact absurd rfl entered.2
  | testing | working => exact Or.inr ⟨rfl, raised⟩
  | leaving | ended => exact ⟨Or.inr rfl, raised⟩

/-- Who finds `STARTED` comes after its store. -/
theorem Placed.entered (placed : shared.Placed)
    (started : shared.runState = .started) : shared.worker.Entered := by
  rcases shared with ⟨runState, stopFlag, networkCalls, worker, iterations⟩
  cases started
  cases worker with
  | absent | entering => simp [Placed] at placed
  | testing | working | leaving | ended => simp [WorkerPlace.Entered]

/-- Who finds `STOPPED`, and knows that the thread was started, comes after
its end. -/
theorem Placed.ended (placed : shared.Placed)
    (stopped : shared.runState = .stopped)
    (present : shared.worker ≠ .absent) : shared.worker = .ended := by
  rcases shared with ⟨runState, stopFlag, networkCalls, worker, iterations⟩
  cases stopped
  cases worker with
  | absent => exact absurd rfl present
  | entering | testing | working | leaving => simp [Placed] at placed
  | ended => rfl

theorem Placed.raised (placed : shared.Placed)
    (ended : shared.worker = .ended) : shared.stopFlag = true := by
  rcases shared with ⟨runState, stopFlag, networkCalls, worker, iterations⟩
  cases ended
  exact placed.2

theorem Placed.entered_of_raised (placed : shared.Placed)
    (raised : shared.stopFlag = true) : shared.worker.Entered := by
  rcases shared with ⟨runState, stopFlag, networkCalls, worker, iterations⟩
  cases raised
  cases worker with
  | absent | entering => simp [Placed] at placed
  | testing | working | leaving | ended => simp [WorkerPlace.Entered]

/-- How far the worker is from its end once the stop flag is up. -/
def rank (shared : Shared) : ℕ :=
  match shared.worker with
  | .absent => 5
  | .entering => 4
  | .working => 3
  | .testing => 2
  | .leaving => 1
  | .ended => 0

theorem runWorker_networkCalls (shared : Shared) :
    shared.runWorker.networkCalls = shared.networkCalls := by
  rcases shared with ⟨runState, stopFlag, networkCalls, worker, iterations⟩
  cases worker <;> cases stopFlag <;> rfl

theorem rank_eq_zero_iff : shared.rank = 0 ↔ shared.worker = .ended := by
  simp only [rank]
  cases shared.worker <;> simp

/-- Once the stop flag is up, each step of the worker brings it closer to its
end. -/
theorem rank_runWorker_lt (raised : shared.stopFlag = true)
    (entered : shared.worker.Entered) (goesOn : shared.rank ≠ 0) :
    shared.runWorker.rank < shared.rank := by
  rcases shared with ⟨runState, stopFlag, networkCalls, worker, iterations⟩
  cases raised
  cases worker with
  | absent => exact absurd rfl entered.1
  | entering => exact absurd rfl entered.2
  | testing | working | leaving => simp [runWorker, rank]
  | ended => exact absurd rfl goesOn

end Shared

/-! ## What a thread knows at its place -/

section Fits

variable {reactor : Reactor} {shared next : Shared}

/-- What a thread in `WorkerScheduler::stop` knows. -/
def StopPlace.Fits (shared : Shared) : StopPlace → Prop
  | .raising => shared.worker.Entered
  | .marking => shared.worker.Entered ∧ shared.stopFlag = true
  | .loading | .waiting | .passed => True

/-- What a handler knows. -/
def HandlerPlace.Fits (shared : Shared) : HandlerPlace → Prop
  | .halting => True
  | .closing place => shared.NetworkStopped ∧ place.Fits shared

/-- What `Scheduler::start` knows. -/
def SchedulerPlace.Fits (shared : Shared) : SchedulerPlace → Prop
  | .checking | .storing =>
      shared.worker = .absent ∧ shared.runState = .stopped
  | .launching => shared.worker = .absent ∧ shared.runState = .starting
  | .networking => shared.worker ≠ .absent
  | .closing place =>
      shared.worker ≠ .absent ∧ shared.NetworkStopped ∧
        place.Fits shared ∧ (place = .passed → shared.worker = .ended)

theorem StopPlace.Fits.onward {place : StopPlace} (fits : place.Fits shared)
    (onward : shared.Onward next) : place.Fits next := by
  cases place with
  | raising => exact onward.entered fits
  | marking => exact ⟨onward.entered fits.1, onward.raised fits.2⟩
  | loading | waiting | passed => trivial

theorem HandlerPlace.Fits.onward {place : HandlerPlace}
    (fits : place.Fits shared) (onward : shared.Onward next) :
    place.Fits next := by
  cases place with
  | halting => trivial
  | closing place => exact ⟨onward.halted fits.1, fits.2.onward onward⟩

theorem SchedulerPlace.Fits.onward {place : StopPlace}
    (fits : (SchedulerPlace.closing place).Fits shared)
    (onward : shared.Onward next) :
    (SchedulerPlace.closing place).Fits next :=
  ⟨onward.present fits.1, onward.halted fits.2.1, fits.2.2.1.onward onward,
    fun passed => onward.ended (fits.2.2.2 passed)⟩

theorem SchedulerPlace.Fits.beside {place : SchedulerPlace}
    (fits : place.Fits shared) (beside : shared.Beside next) :
    place.Fits next := by
  cases place with
  | checking | storing | launching =>
      have same : next.runState = shared.runState :=
        beside.runState.resolve_right fun marked => marked.1.1 fits.1
      exact ⟨beside.worker.trans fits.1, same.trans fits.2⟩
  | networking => exact beside.onward.present fits
  | closing place => exact fits.onward beside.onward

theorem SchedulerPlace.Fits.runWorker {place : SchedulerPlace}
    (fits : place.Fits shared) : place.Fits shared.runWorker := by
  have stays (absent : shared.worker = .absent) :
      shared.runWorker = shared := by
    rw [Shared.runWorker, absent]
  cases place with
  | checking | storing | launching => exact (stays fits.1).symm ▸ fits
  | networking => exact shared.runWorker_onward.present fits
  | closing place => exact fits.onward shared.runWorker_onward

/-- One step of `WorkerScheduler::stop`. -/
theorem StopPlace.Fits.advance {place : StopPlace} (placed : shared.Placed)
    (fits : place.Fits shared) :
    shared.Beside (place.advance shared).1 ∧
      (place.advance shared).1.networkCalls = shared.networkCalls ∧
      (place.advance shared).2.Fits (place.advance shared).1 := by
  cases place with
  | loading =>
      refine ⟨placed.beside, rfl, ?_⟩
      by_cases started : shared.runState = .started
      · simp only [StopPlace.advance, started, if_true]
        exact placed.entered started
      · simp [StopPlace.advance, started, StopPlace.Fits]
  | raising => exact ⟨placed.raise fits, rfl, fits, rfl⟩
  | marking => exact ⟨placed.mark fits.1 fits.2, rfl, trivial⟩
  | waiting =>
      refine ⟨placed.beside, rfl, ?_⟩
      cases running : shared.isWorkerRunning <;>
        simp [StopPlace.advance, running, StopPlace.Fits]
  | passed => exact ⟨placed.beside, rfl, trivial⟩

/-- One step of a handler. -/
theorem HandlerPlace.Fits.advance {place : HandlerPlace}
    (placed : shared.Placed) (fits : place.Fits shared) :
    shared.Beside (place.advance shared).1 ∧
      (place.advance shared).1.NetworkStopped ∧
      (place.advance shared).2.Fits (place.advance shared).1 := by
  cases place with
  | halting =>
      have halted := shared.callReactor_stop
      exact ⟨placed.callReactor .stop, halted, halted, trivial⟩
  | closing place =>
      obtain ⟨beside, -, fitsNext⟩ := fits.2.advance placed
      have halted := beside.onward.halted fits.1
      exact ⟨beside, halted, halted, fitsNext⟩

/-- What ends the loop `while (is_worker_running())`. -/
theorem StopPlace.passed_of_advance {place : StopPlace}
    (passed : (place.advance shared).2 = .passed) :
    place = .passed ∨ shared.runState = .stopped := by
  cases place with
  | loading =>
      simp only [StopPlace.advance] at passed
      split at passed <;> cases passed
  | raising | marking => cases passed
  | waiting =>
      refine Or.inr ?_
      by_contra running
      simp [StopPlace.advance, Shared.isWorkerRunning, running] at passed
  | passed => exact Or.inl rfl

theorem StopPlace.runState_advance (shared : Shared) (place : StopPlace) :
    (place.advance shared).1.runState = shared.runState ∨
      place = .marking := by
  cases place with
  | loading | raising | waiting | passed => exact Or.inl rfl
  | marking => exact Or.inr rfl

theorem StopPlace.iterations_advance (shared : Shared) (place : StopPlace) :
    (place.advance shared).1.iterations = shared.iterations := by
  cases place <;> rfl

theorem HandlerPlace.runState_advance (shared : Shared)
    (place : HandlerPlace) :
    (place.advance shared).1.runState = shared.runState ∨
      place = .closing .marking := by
  cases place with
  | halting => exact Or.inl rfl
  | closing place =>
      exact (place.runState_advance shared).imp id (congrArg _)

/-- One step of `Scheduler::start` before the worker thread is started. -/
theorem SchedulerPlace.Fits.advance_absent {place : SchedulerPlace}
    (placed : shared.Placed) (fits : place.Fits shared)
    (absent : shared.worker = .absent) :
    (place.advance reactor shared).1.Placed ∧
      (place.advance reactor shared).2.Fits
        (place.advance reactor shared).1 ∧
      (place.advance reactor shared).1.stopFlag = shared.stopFlag ∧
      (place.advance reactor shared).1.networkCalls =
        shared.networkCalls := by
  rcases shared with ⟨runState, stopFlag, networkCalls, worker, _⟩
  cases absent
  cases place with
  | checking =>
      obtain rfl : runState = .stopped := fits.2
      exact ⟨placed, fits, rfl, rfl⟩
  | storing => exact ⟨⟨Or.inr rfl, placed.2⟩, ⟨rfl, rfl⟩, rfl, rfl⟩
  | launching =>
      obtain rfl : runState = .starting := fits.2
      refine ⟨⟨rfl, placed.2⟩, ?_, rfl, rfl⟩
      simp [SchedulerPlace.advance, SchedulerPlace.Fits]
  | networking => exact absurd rfl fits
  | closing place => exact absurd rfl fits.1

/-- One step of `Scheduler::start` afterwards. -/
theorem SchedulerPlace.Fits.advance (lawful : reactor.Lawful)
    {place : SchedulerPlace} (placed : shared.Placed)
    (fits : place.Fits shared) (present : shared.worker ≠ .absent) :
    shared.Beside (place.advance reactor shared).1 ∧
      ((place.advance reactor shared).1.stopFlag = shared.stopFlag ∨
        shared.NetworkStopped) ∧
      ((place.advance reactor shared).1.runState = shared.runState ∨
        place = .closing .marking) ∧
      (place.advance reactor shared).2.Fits
        (place.advance reactor shared).1 := by
  cases place with
  | checking | storing | launching => exact absurd fits.1 present
  | networking =>
      refine ⟨placed.callReactor .iterate, Or.inl rfl, Or.inl rfl, ?_⟩
      simp only [SchedulerPlace.advance]
      split
      · rename_i returns
        refine ⟨fits, ?_, trivial, by simp⟩
        by_contra runs
        rw [lawful.runs _ runs] at returns
        cases returns
      · exact fits
  | closing place =>
      obtain ⟨_, halted, fits, passed⟩ := fits
      obtain ⟨beside, -, fitsNext⟩ := fits.advance placed
      refine ⟨beside, Or.inr halted,
        (place.runState_advance shared).imp id (congrArg _),
        beside.onward.present present, beside.onward.halted halted, fitsNext,
        ?_⟩
      intro isOver
      -- the loop ends on `STOPPED`, which only the worker has stored
      rcases StopPlace.passed_of_advance isOver with before | stopped
      · exact beside.onward.ended (passed before)
      · exact beside.onward.ended (placed.ended stopped present)

end Fits

/-! ## The way to the end of a thread -/

/-- How many steps are left of `WorkerScheduler::stop` and the loop behind it,
once `run_state` is `STOPPED`. -/
def StopPlace.rank : StopPlace → ℕ
  | .loading => 4
  | .raising => 3
  | .marking => 2
  | .waiting => 1
  | .passed => 0

/-- How many steps are left of a handler. -/
def HandlerPlace.rank : HandlerPlace → ℕ
  | .halting => 5
  | .closing place => place.rank

/-- How many steps are left of the handlers of a thread. -/
def HandlerPlace.ranks : List HandlerPlace → ℕ
  | [] => 0
  | place :: outer => place.rank + 1 + ranks outer

/-- How many steps are left of `Scheduler::start`, when the reactor returns
after so many more iterations. -/
def SchedulerPlace.rank (iterations : ℕ) : SchedulerPlace → ℕ
  | .checking => iterations + 8
  | .storing => iterations + 7
  | .launching => iterations + 6
  | .networking => iterations + 5
  | .closing place => place.rank

section Rank

variable {reactor : Reactor} {shared : Shared}

theorem StopPlace.rank_advance_lt {place : StopPlace}
    (stopped : shared.runState = .stopped) (goesOn : place ≠ .passed) :
    (place.advance shared).2.rank < place.rank := by
  cases place with
  | loading | waiting =>
      simp [StopPlace.advance, StopPlace.rank, Shared.isWorkerRunning, stopped]
  | raising | marking => exact Nat.lt_succ_self _
  | passed => exact absurd rfl goesOn

theorem HandlerPlace.rank_advance_lt {place : HandlerPlace}
    (stopped : shared.runState = .stopped)
    (goesOn : place ≠ .closing .passed) :
    (place.advance shared).2.rank < place.rank := by
  cases place with
  | halting => exact Nat.lt_succ_self _
  | closing place =>
      exact place.rank_advance_lt stopped fun passed => goesOn (passed ▸ rfl)

/-- How many iterations the reactor is from the bound. -/
def Shared.iterationsLeft (shared : Shared) (bound : ℕ) : ℕ :=
  bound - shared.networkCalls.count .iterate

theorem SchedulerPlace.rank_advance_lt {place : SchedulerPlace} {bound : ℕ}
    (stopped : shared.runState = .stopped)
    (returns :
      bound ≤ (shared.callReactor .iterate).networkCalls.count .iterate →
      reactor (shared.callReactor .iterate).networkCalls = true)
    (goesOn : place ≠ .closing .passed) :
    (place.advance reactor shared).2.rank
        ((place.advance reactor shared).1.iterationsLeft bound) <
      place.rank (shared.iterationsLeft bound) := by
  cases place with
  | checking =>
      simp [SchedulerPlace.advance, SchedulerPlace.rank, stopped]
  | networking =>
      simp only [SchedulerPlace.advance]
      split
      · simp only [SchedulerPlace.rank, StopPlace.rank]
        omega
      · rename_i runs
        have within := Nat.lt_of_not_le (mt returns runs)
        simp only [Shared.callReactor, List.count_append,
          List.count_singleton_self] at within
        simp only [SchedulerPlace.rank, Shared.iterationsLeft,
          Shared.callReactor, List.count_append, List.count_singleton_self]
        omega
  | storing | launching => exact Nat.lt_succ_self _
  | closing place =>
      exact place.rank_advance_lt stopped fun passed => goesOn (passed ▸ rfl)

theorem SchedulerPlace.rank_eq_zero {place : SchedulerPlace}
    {iterations : ℕ} (zero : place.rank iterations = 0) :
    place = .closing .passed := by
  cases place with
  | checking | storing | launching | networking => cases zero
  | closing place => cases place <;> first | rfl | cases zero

/-- Handlers make no iteration. -/
theorem HandlerPlace.iterationsLeft_advance (place : HandlerPlace)
    (bound : ℕ) :
    (place.advance shared).1.iterationsLeft bound =
      shared.iterationsLeft bound := by
  cases place with
  | halting =>
      simp [HandlerPlace.advance, Shared.iterationsLeft, Shared.callReactor,
        List.count_append]
  | closing place => cases place <;> rfl

end Rank

/-! ## Runs -/

namespace Lifecycle

/-- The invariant of the process. -/
structure Sound (state : Lifecycle) : Prop where
  placed : state.shared.Placed
  /-- `WorkerScheduler::stop` comes after the end of the reactor. -/
  halted : state.shared.stopFlag = true → state.shared.NetworkStopped
  scheduler : state.scheduler.Fits state.shared
  handlers : ∀ thread, ∀ place ∈ state.handlers thread,
    place.Fits state.shared ∧ place ≠ .closing .passed

variable {state next : Lifecycle} {event : LifecycleEvent} {thread : Thread}

theorem start_sound : start.Sound where
  placed := ⟨Or.inl rfl, rfl⟩
  halted raised := absurd raised (by decide)
  scheduler := ⟨rfl, rfl⟩
  handlers _ _ inside := absurd inside List.not_mem_nil

theorem mem_push {place kept : HandlerPlace} {outer : List HandlerPlace}
    (inside : kept ∈ push place outer) :
    kept = place ∧ place ≠ .closing .passed ∨ kept ∈ outer := by
  simp only [push] at inside
  split at inside
  · exact Or.inr inside
  · rename_i goesOn
    exact (List.mem_cons.mp inside).imp (fun same => ⟨same, goesOn⟩) id

/-- A thread takes a signal. -/
theorem Sound.signal (sound : state.Sound) (thread : Thread) :
    (state.advance reactor (.signal thread)).Sound := by
  simp only [advance]
  split
  · exact sound
  · refine ⟨sound.placed, sound.halted, sound.scheduler, ?_⟩
    intro other place inside
    rcases eq_or_ne other thread with rfl | different
    · simp only [Function.update_self, List.mem_cons] at inside
      rcases inside with rfl | inside
      · exact ⟨trivial, by decide⟩
      · exact sound.handlers other place inside
    · simp only [Function.update_of_ne different] at inside
      exact sound.handlers other place inside

/-- What a thread knows is not lost by the steps of others. -/
theorem Sound.handlersOnward (sound : state.Sound) {shared : Shared}
    (onward : state.shared.Onward shared) (thread : Thread) :
    ∀ place ∈ state.handlers thread,
      place.Fits shared ∧ place ≠ .closing .passed :=
  fun place inside => (sound.handlers thread place inside).imp
    (fun fits => fits.onward onward) id

theorem Sound.innermost (sound : state.Sound) {place : HandlerPlace}
    {outer : List HandlerPlace}
    (inner : state.handlers thread = place :: outer) :
    place.Fits state.shared ∧ place ≠ .closing .passed :=
  sound.handlers thread place (inner ▸ List.mem_cons_self)

/-- A thread goes on in its innermost handler. -/
theorem Sound.handle (sound : state.Sound) {place : HandlerPlace}
    {outer : List HandlerPlace}
    (inner : state.handlers thread = place :: outer) :
    (state.handle thread place outer).Sound := by
  obtain ⟨beside, halted, fits⟩ :=
    (sound.innermost inner).1.advance sound.placed
  refine ⟨beside.placed, fun _ => halted, sound.scheduler.beside beside, ?_⟩
  intro other kept inside
  simp only [Lifecycle.handle] at inside
  rcases eq_or_ne other thread with rfl | different
  · rw [Function.update_self] at inside
    rcases mem_push inside with ⟨rfl, goesOn⟩ | inside
    · exact ⟨fits, goesOn⟩
    · exact sound.handlersOnward beside.onward other kept
        (inner ▸ List.mem_cons_of_mem _ inside)
  · rw [Function.update_of_ne different] at inside
    exact sound.handlersOnward beside.onward other kept inside

/-- The thread of the program goes on in `Scheduler::start`. -/
theorem Sound.schedulerGoesOn (lawful : reactor.Lawful)
    (sound : state.Sound) :
    (state.goOn reactor .scheduler).Sound ∧
      state.shared.Onward (state.goOn reactor .scheduler).shared := by
  by_cases absent : state.shared.worker = .absent
  · obtain ⟨placed, fits, sameFlag, sameCalls⟩ :=
      sound.scheduler.advance_absent sound.placed absent
    have onward : state.shared.Onward (state.goOn reactor .scheduler).shared :=
      ⟨fun entered => absurd absent entered.1,
        fun present => absurd absent present,
        fun ended => absurd (absent.symm.trans ended) (by decide),
        sameFlag.trans, sameCalls.symm ▸ List.prefix_rfl⟩
    refine ⟨⟨placed, ?_, fits, sound.handlersOnward onward⟩, onward⟩
    exact fun raised =>
      onward.halted (sound.halted (sameFlag.symm.trans raised))
  · obtain ⟨beside, flag, -, fits⟩ :=
      sound.scheduler.advance lawful sound.placed absent
    refine ⟨⟨beside.placed, ?_, fits, sound.handlersOnward beside.onward⟩,
      beside.onward⟩
    intro raised
    apply beside.onward.halted
    rcases flag with sameFlag | halted
    · exact sound.halted (sameFlag.symm.trans raised)
    · exact halted

/-- The worker thread goes on in `Worker::run`. -/
theorem Sound.workerGoesOn (sound : state.Sound) :
    (state.goOn reactor .worker).Sound := by
  have onward := state.shared.runWorker_onward
  refine ⟨sound.placed.runWorker, ?_, sound.scheduler.runWorker,
    sound.handlersOnward onward⟩
  exact fun raised => onward.halted
    (sound.halted (state.shared.runWorker_stopFlag.symm.trans raised))

theorem Sound.step (lawful : reactor.Lawful) (sound : state.Sound)
    (event : LifecycleEvent) :
    (state.advance reactor event).Sound := by
  cases event with
  | signal thread => exact sound.signal thread
  | step thread =>
      simp only [advance]
      split
      · exact sound.handle ‹_›
      · cases thread with
        | scheduler => exact (sound.schedulerGoesOn lawful).1
        | worker => exact sound.workerGoesOn
        | other => exact sound

/-- A step other than the worker's own, once the worker thread is there. -/
theorem Sound.beside (lawful : reactor.Lawful) (sound : state.Sound)
    (present : state.shared.worker ≠ .absent)
    (others : ¬(event = .step .worker ∧ state.handlers .worker = [])) :
    state.shared.Beside (state.advance reactor event).shared ∧
      ((state.advance reactor event).shared.runState = state.shared.runState ∨
        state.Marks event) := by
  cases event with
  | signal thread =>
      simp only [advance]
      split <;> exact ⟨sound.placed.beside, Or.inl rfl⟩
  | step thread =>
      simp only [advance]
      split
      · rename_i place outer inner
        refine ⟨((sound.innermost inner).1.advance sound.placed).1, ?_⟩
        refine (place.runState_advance state.shared).imp id ?_
        rintro rfl
        exact ⟨thread, rfl, Or.inl (by rw [inner, List.head?_cons])⟩
      · rename_i inner
        cases thread with
        | scheduler =>
            obtain ⟨beside, -, same, -⟩ :=
              sound.scheduler.advance lawful sound.placed present
            exact ⟨beside, same.imp id fun marking =>
              ⟨.scheduler, rfl, Or.inr ⟨rfl, inner, marking⟩⟩⟩
        | worker => exact absurd ⟨rfl, inner⟩ others
        | other => exact ⟨sound.placed.beside, Or.inl rfl⟩

/-- The worker's own step. -/
theorem advance_worker (alone : state.handlers .worker = []) :
    state.advance reactor (.step .worker) =
      { state with shared := state.shared.runWorker } := by
  simp only [advance, alone, goOn]

theorem Sound.onward (lawful : reactor.Lawful) (sound : state.Sound)
    (event : LifecycleEvent) :
    state.shared.Onward (state.advance reactor event).shared := by
  cases event with
  | signal thread =>
      simp only [advance]
      split <;> exact sound.placed.beside.onward
  | step thread =>
      simp only [advance]
      split
      · exact ((sound.innermost ‹_›).1.advance sound.placed).1.onward
      · cases thread with
        | scheduler => exact (sound.schedulerGoesOn lawful).2
        | worker => exact state.shared.runWorker_onward
        | other => exact sound.placed.beside.onward

/-- `Scheduler::start` returns only when it finds `STOPPED`. -/
theorem returned_of_advance
    (returned : (state.advance reactor event).Returned) :
    state.Returned ∨ state.shared.runState = .stopped := by
  cases event with
  | signal thread =>
      simp only [advance] at returned
      split at returned <;> exact Or.inl returned
  | step thread =>
      simp only [advance] at returned
      split at returned
      · exact Or.inl returned
      · cases thread with
        | scheduler =>
            simp only [Returned, goOn] at returned ⊢
            generalize state.scheduler = place at returned ⊢
            cases place with
            | checking | networking =>
                simp only [SchedulerPlace.advance] at returned
                split at returned <;> cases returned
            | storing | launching => cases returned
            | closing place =>
                injection returned with passed
                exact (StopPlace.passed_of_advance passed).imp (congrArg _) id
        | worker | other => exact Or.inl returned

/-! ## Lost ends -/

/-- The loops `while (is_worker_running())` go on for ever. -/
def Hung (state : Lifecycle) : Prop :=
  state.shared.worker = .ended ∧ state.shared.runState = .stopping ∨
    state.shared.worker ≠ .absent ∧ state.shared.worker ≠ .ended ∧
      state.handlers .worker ≠ []

theorem Sound.running (sound : state.Sound) (hung : state.Hung) :
    state.shared.runState ≠ .stopped := by
  rcases hung with ⟨-, stopping⟩ | ⟨present, goesOn, -⟩
  · rw [stopping]
    decide
  · exact fun stopped => goesOn (sound.placed.ended stopped present)

/-- The handlers of the worker thread do not return while `run_state` is not
`STOPPED`. -/
theorem Sound.handlers_ne_nil (sound : state.Sound)
    (running : state.shared.runState ≠ .stopped)
    (held : state.handlers .worker ≠ []) :
    (state.advance reactor event).handlers .worker ≠ [] := by
  cases event with
  | signal thread =>
      simp only [advance]
      split
      · exact held
      · rcases eq_or_ne .worker thread with rfl | different
        · simp
        · simpa only [Function.update_of_ne different] using held
  | step thread =>
      simp only [advance]
      split
      · rename_i place outer inner
        rcases eq_or_ne .worker thread with rfl | different
        · simp only [Lifecycle.handle, Function.update_self, push]
          split
          · rename_i passed
            cases place with
            | halting => cases passed
            | closing place =>
                injection passed with passed
                rcases StopPlace.passed_of_advance passed with rfl | stopped
                · exact absurd rfl (sound.innermost inner).2
                · exact absurd stopped running
          · simp
        · simpa only [Lifecycle.handle, Function.update_of_ne different]
            using held
      · cases thread <;> exact held

/-- Nothing brings back an end that is lost. -/
theorem Sound.hung (lawful : reactor.Lawful) (sound : state.Sound)
    (hung : state.Hung) (event : LifecycleEvent) :
    (state.advance reactor event).Hung := by
  rcases hung with ⟨ended, stopping⟩ | ⟨present, goesOn, held⟩
  · have endedNext := (sound.onward lawful event).ended ended
    refine Or.inl ⟨endedNext, ?_⟩
    by_cases own : event = .step .worker ∧ state.handlers .worker = []
    · obtain ⟨rfl, alone⟩ := own
      simpa only [advance_worker alone, Shared.runWorker, ended] using stopping
    · obtain ⟨beside, -⟩ := sound.beside lawful (by rw [ended]; decide) own
      rcases beside.runState with same | ⟨-, marked⟩
      · exact same.trans stopping
      · exact marked
  · have running := sound.running (Or.inr ⟨present, goesOn, held⟩)
    have own : ¬(event = .step .worker ∧ state.handlers .worker = []) :=
      fun own => held own.2
    have same := (sound.beside lawful present own).1.worker
    refine Or.inr ⟨?_, ?_, sound.handlers_ne_nil running held⟩
    · rwa [same]
    · rwa [same]

/-- A step that disrupts the end loses it. -/
theorem Sound.hung_of_disrupts (lawful : reactor.Lawful)
    (sound : state.Sound) (disrupts : state.Disrupts event) :
    (state.advance reactor event).Hung := by
  rcases disrupts with ⟨ended, thread, rfl, marks⟩ | ⟨goesOn, present, rfl⟩
  · refine Or.inl ⟨(sound.onward lawful _).ended ended, ?_⟩
    rcases marks with inner | ⟨rfl, alone, marking⟩
    · obtain ⟨outer, inner⟩ := List.head?_eq_some_iff.mp inner
      simp only [advance, inner]
      rfl
    · simp only [advance, alone, goOn, marking]
      rfl
  · simp only [advance, present, and_false, if_false]
    exact Or.inr ⟨present, goesOn, by simp⟩

/-- A step that disrupts the end is not the last one of
`Scheduler::start`. -/
theorem returned_of_disrupts (disrupts : state.Disrupts event)
    (returned : (state.advance reactor event).Returned) : state.Returned := by
  rcases disrupts with ⟨-, thread, rfl, marks⟩ | ⟨-, present, rfl⟩
  · rcases marks with inner | ⟨rfl, alone, marking⟩
    · obtain ⟨outer, inner⟩ := List.head?_eq_some_iff.mp inner
      simp only [advance, inner] at returned
      exact returned
    · simp only [advance, alone, goOn, marking] at returned
      cases returned
  · simp only [advance, present, and_false, if_false] at returned
    exact returned

/-! ## Endless runs -/

/-- The states of the process under a schedule. -/
def along (reactor : Reactor) (schedule : ℕ → LifecycleEvent) :
    ℕ → Lifecycle :=
  trace (advance reactor) start schedule

variable {schedule : ℕ → LifecycleEvent}

theorem along_succ (reactor : Reactor) (schedule : ℕ → LifecycleEvent)
    (moment : ℕ) :
    along reactor schedule (moment + 1) =
      (along reactor schedule moment).advance reactor (schedule moment) :=
  rfl

theorem along_sound (lawful : reactor.Lawful)
    (schedule : ℕ → LifecycleEvent) (moment : ℕ) :
    (along reactor schedule moment).Sound :=
  trace_invariant start_sound
    (fun _ event sound => sound.step lawful event) moment

/-- After a lost end `Scheduler::start` does not return. -/
theorem not_returned_of_hung (lawful : reactor.Lawful) {first : ℕ}
    (hung : (along reactor schedule first).Hung)
    (waits : ¬(along reactor schedule first).Returned) {moment : ℕ}
    (later : first ≤ moment) : ¬(along reactor schedule moment).Returned := by
  have both : (along reactor schedule moment).Hung ∧
      ¬(along reactor schedule moment).Returned := by
    refine trace_keeps (fun state : Lifecycle => state.Hung ∧ ¬state.Returned)
      ⟨hung, waits⟩ ?_ later
    intro moment _ before
    have sound := along_sound lawful schedule moment
    refine ⟨sound.hung lawful before.1 _, fun returned => ?_⟩
    rcases returned_of_advance returned with already | stopped
    · exact before.2 already
    · exact sound.running before.1 stopped
  exact both.2

/-- A worker thread that is not held comes to its end once the stop flag is
up. -/
theorem exists_ended (lawful : reactor.Lawful) {first : ℕ}
    (workerRuns : ∃ᶠ moment in atTop, schedule moment = .step .worker)
    (raised : (along reactor schedule first).shared.stopFlag = true)
    (free : ∀ moment, (along reactor schedule moment).shared.worker ≠ .ended →
      (along reactor schedule moment).handlers .worker = []) :
    ∃ moment, first ≤ moment ∧
      (along reactor schedule moment).shared.worker = .ended := by
  have raisedAt {moment : ℕ} (later : first ≤ moment) :
      (along reactor schedule moment).shared.stopFlag = true :=
    trace_keeps (fun state : Lifecycle => state.shared.stopFlag = true) raised
      (fun moment _ =>
        ((along_sound lawful schedule moment).onward lawful _).raised) later
  have entered {moment : ℕ} (later : first ≤ moment) :
      (along reactor schedule moment).shared.worker.Entered :=
    (along_sound lawful schedule moment).placed.entered_of_raised
      (raisedAt later)
  have drops (moment : ℕ) (later : first ≤ moment)
      (fires : schedule moment = .step .worker)
      (goesOn : (along reactor schedule moment).shared.rank ≠ 0) :
      (along reactor schedule (moment + 1)).shared.rank <
        (along reactor schedule moment).shared.rank := by
    have alone := free moment (mt Shared.rank_eq_zero_iff.mpr goesOn)
    rw [along_succ, fires, advance_worker alone]
    exact Shared.rank_runWorker_lt (raisedAt later) (entered later) goesOn
  have keeps (moment : ℕ) (later : first ≤ moment) :
      (along reactor schedule (moment + 1)).shared.rank ≤
        (along reactor schedule moment).shared.rank := by
    have sound := along_sound lawful schedule moment
    by_cases ended : (along reactor schedule moment).shared.worker = .ended
    · have endedNext := (sound.onward lawful (schedule moment)).ended ended
      rw [along_succ, Shared.rank_eq_zero_iff.mpr endedNext]
      exact Nat.zero_le _
    · by_cases fires : schedule moment = .step .worker
      · exact (drops moment later fires
          (mt Shared.rank_eq_zero_iff.mp ended)).le
      · have same := (sound.beside lawful (entered later).1
          (fun own => fires own.1)).1.worker
        simp only [Shared.rank, along_succ, same, le_refl]
  obtain ⟨moment, later, zero⟩ :=
    exists_measure_eq_zero workerRuns keeps drops
  exact ⟨moment, later, Shared.rank_eq_zero_iff.mp zero⟩

/-- How many steps are left of the scheduler thread, when the reactor returns
at so many iterations. -/
def rank (bound : ℕ) (state : Lifecycle) : ℕ :=
  HandlerPlace.ranks (state.handlers .scheduler) +
    state.scheduler.rank (state.shared.iterationsLeft bound)

theorem returned_of_rank {bound : ℕ} (zero : state.rank bound = 0) :
    state.Returned :=
  SchedulerPlace.rank_eq_zero (Nat.add_eq_zero_iff.mp zero).2

/-- The steps of the other threads leave the scheduler thread where it is. -/
theorem rank_advance_of_ne (bound : ℕ)
    (quiet : ∀ thread, event ≠ .signal thread)
    (others : event ≠ .step .scheduler) :
    (state.advance reactor event).rank bound = state.rank bound := by
  cases event with
  | signal thread => exact absurd rfl (quiet thread)
  | step thread =>
      have different : Thread.scheduler ≠ thread :=
        fun same => others (same ▸ rfl)
      simp only [advance]
      split
      · simp only [rank, handle, Function.update_of_ne different,
          HandlerPlace.iterationsLeft_advance]
      · cases thread with
        | scheduler => exact absurd rfl different
        | worker =>
            simp only [rank, goOn, Shared.iterationsLeft,
              Shared.runWorker_networkCalls]
        | other => rfl

/-- Once `run_state` is `STOPPED` and the reactor returns at the bound, each
step of the scheduler thread brings it closer to its end. -/
theorem Sound.rank_advance_lt (sound : state.Sound) {bound : ℕ}
    (stopped : state.shared.runState = .stopped)
    (returns : bound ≤
        (state.shared.callReactor .iterate).networkCalls.count .iterate →
      reactor (state.shared.callReactor .iterate).networkCalls = true)
    (waits : ¬state.Returned) :
    (state.advance reactor (.step .scheduler)).rank bound <
      state.rank bound := by
  simp only [advance]
  split
  · rename_i place outer inner
    have less : (place.advance state.shared).2.rank < place.rank :=
      place.rank_advance_lt stopped (sound.innermost inner).2
    simp only [Lifecycle.rank, Lifecycle.handle, Function.update_self, inner,
      HandlerPlace.ranks, push, HandlerPlace.iterationsLeft_advance]
    split
    · omega
    · simp only [HandlerPlace.ranks]
      omega
  · rename_i alone
    simpa only [Lifecycle.rank, goOn, alone, HandlerPlace.ranks,
      Nat.zero_add] using
        state.scheduler.rank_advance_lt stopped returns waits

/-- The loops find `STOPPED` when the worker has ended. -/
def Truthful (state : Lifecycle) : Prop :=
  state.shared.worker = .ended → state.shared.runState = .stopped

theorem Sound.ne_ended_of_absent (sound : state.Sound)
    (absent : state.shared.worker = .absent) :
    (state.advance reactor event).shared.worker ≠ .ended := by
  have goesOn : state.shared.worker ≠ .ended := by
    rw [absent]
    decide
  cases event with
  | signal thread =>
      simp only [advance]
      split <;> exact goesOn
  | step thread =>
      simp only [advance]
      split
      · have beside := ((sound.innermost ‹_›).1.advance sound.placed).1
        exact fun ended => goesOn (beside.worker.symm.trans ended)
      · cases thread with
        | scheduler =>
            intro ended
            obtain ⟨placed, -, sameFlag, -⟩ :=
              sound.scheduler.advance_absent sound.placed absent
            have raised : state.shared.stopFlag = true :=
              sameFlag.symm.trans (placed.raised ended)
            exact (sound.placed.entered_of_raised raised).1 absent
        | worker => simpa only [goOn, Shared.runWorker, absent] using goesOn
        | other => exact goesOn

/-- The worker's own step. -/
theorem Truthful.runWorker (truthful : state.Truthful)
    (alone : state.handlers .worker = []) :
    (state.advance reactor (.step .worker)).Truthful := by
  rw [advance_worker alone]
  intro ended
  cases worker : state.shared.worker with
  | absent | entering | working =>
      simp [Shared.runWorker, worker] at ended
  | testing =>
      simp only [Shared.runWorker, worker] at ended
      split at ended <;> cases ended
  | leaving => simp only [Shared.runWorker, worker]
  | ended => simpa only [Shared.runWorker, worker] using truthful worker

theorem Sound.truthful (lawful : reactor.Lawful) (sound : state.Sound)
    (truthful : state.Truthful)
    (calm : ¬state.Disrupts event) :
    (state.advance reactor event).Truthful := by
  by_cases own : event = .step .worker ∧ state.handlers .worker = []
  · obtain ⟨rfl, alone⟩ := own
    exact truthful.runWorker alone
  · intro ended
    have present : state.shared.worker ≠ .absent :=
      fun absent => sound.ne_ended_of_absent absent ended
    obtain ⟨beside, same⟩ := sound.beside lawful present own
    have endedBefore := beside.worker.symm.trans ended
    rcases same with same | marks
    · exact same.trans (truthful endedBefore)
    · exact absurd (Or.inl ⟨endedBefore, marks⟩) calm

/-- The worker thread does not wait for its own end. -/
def Free (state : Lifecycle) : Prop :=
  state.shared.worker ≠ .ended → state.handlers .worker = []

theorem Sound.free (lawful : reactor.Lawful) (sound : state.Sound)
    (free : state.Free)
    (calm : ¬state.Disrupts event) : (state.advance reactor event).Free := by
  intro goesOnNext
  have goesOn : state.shared.worker ≠ .ended :=
    fun ended => goesOnNext ((sound.onward lawful event).ended ended)
  have alone := free goesOn
  cases event with
  | signal thread =>
      simp only [advance]
      split
      · exact alone
      · rename_i taken
        rcases eq_or_ne thread .worker with rfl | different
        · have present : state.shared.worker ≠ .absent :=
            fun absent => taken ⟨rfl, absent⟩
          exact absurd (Or.inr ⟨goesOn, present, rfl⟩) calm
        · simpa only [Function.update_of_ne different.symm] using alone
  | step thread =>
      simp only [advance]
      split
      · rename_i place outer inner
        have different : Thread.worker ≠ thread := by
          rintro rfl
          rw [alone] at inner
          cases inner
        simpa only [Lifecycle.handle, Function.update_of_ne different]
          using alone
      · cases thread <;> exact alone

/-- From a moment on at which the worker has ended, and after the last
signal, the scheduler thread comes to its end. -/
theorem exists_returned (lawful : reactor.Lawful) {first : ℕ}
    (schedulerRuns : ∃ᶠ moment in atTop, schedule moment = .step .scheduler)
    (quiet : ∀ moment, first ≤ moment →
      ∀ thread, schedule moment ≠ .signal thread)
    (ended : (along reactor schedule first).shared.worker = .ended)
    (truthful : ∀ moment, (along reactor schedule moment).Truthful) :
    ∃ moment, (along reactor schedule moment).Returned := by
  by_contra waits
  have onward {moment : ℕ} (later : first ≤ moment) :
      (along reactor schedule first).shared.networkCalls <+:
          (along reactor schedule moment).shared.networkCalls ∧
        (along reactor schedule moment).shared.worker = .ended :=
    trace_keeps (fun state : Lifecycle =>
      (along reactor schedule first).shared.networkCalls <+:
          state.shared.networkCalls ∧ state.shared.worker = .ended)
      ⟨List.prefix_rfl, ended⟩
      (fun moment _ before =>
        have step := (along_sound lawful schedule moment).onward lawful _
        ⟨before.1.trans step.calls, step.ended before.2⟩) later
  -- the reactor was stopped before the worker
  have soundFirst := along_sound lawful schedule first
  obtain ⟨more, returns⟩ := lawful.stops _
    (soundFirst.halted (soundFirst.placed.raised ended))
  let bound :=
    (along reactor schedule first).shared.networkCalls.count .iterate + more
  have drops (moment : ℕ) (later : first ≤ moment)
      (fires : schedule moment = .step .scheduler)
      (_ : (along reactor schedule moment).rank bound ≠ 0) :
      (along reactor schedule (moment + 1)).rank bound <
        (along reactor schedule moment).rank bound := by
    have sound := along_sound lawful schedule moment
    obtain ⟨⟨calls, since⟩, endedNow⟩ := onward later
    rw [along_succ, fires]
    refine sound.rank_advance_lt (truthful moment endedNow) ?_
      fun returned => waits ⟨moment, returned⟩
    simp only [Shared.callReactor, ← since, List.append_assoc]
    intro enough
    rw [List.count_append] at enough
    exact returns _ (Nat.le_of_add_le_add_left enough)
  have keeps (moment : ℕ) (later : first ≤ moment) :
      (along reactor schedule (moment + 1)).rank bound ≤
        (along reactor schedule moment).rank bound := by
    by_cases fires : schedule moment = .step .scheduler
    · by_cases zero : (along reactor schedule moment).rank bound = 0
      · exact absurd ⟨moment, returned_of_rank zero⟩ waits
      · exact (drops moment later fires zero).le
    · exact (rank_advance_of_ne bound (quiet moment later) fires).le
  obtain ⟨moment, -, zero⟩ :=
    exists_measure_eq_zero schedulerRuns keeps drops
  exact waits ⟨moment, returned_of_rank zero⟩

/-- Whatever the reactor does until it is stopped, in every fair run with
finitely many signals `Scheduler::start` returns exactly if some stop raises
the stop flag and, before the return, none stores `STOPPING` after the
worker's `STOPPED` and the worker thread takes no signal. -/
theorem returns_iff (lawful : reactor.Lawful) (schedule : ℕ → LifecycleEvent)
    (schedulerRuns : ∃ᶠ moment in atTop, schedule moment = .step .scheduler)
    (workerRuns : ∃ᶠ moment in atTop, schedule moment = .step .worker)
    (signalsEnd : ∀ᶠ moment in atTop,
      ∀ thread, schedule moment ≠ .signal thread) :
    (∃ moment, (along reactor schedule moment).Returned) ↔
      (∃ moment, (along reactor schedule moment).shared.stopFlag = true) ∧
        ∀ moment, (along reactor schedule moment).Disrupts (schedule moment) →
          ∃ earlier, earlier ≤ moment ∧
            (along reactor schedule earlier).Returned := by
  constructor
  · rintro ⟨moment, returned⟩
    have sound := along_sound lawful schedule moment
    have ended : (along reactor schedule moment).shared.worker = .ended := by
      have fits := sound.scheduler
      rw [returned] at fits
      exact fits.2.2.2 rfl
    refine ⟨⟨moment, sound.placed.raised ended⟩, ?_⟩
    intro disrupted disrupts
    by_contra waits
    have waitsNext : ¬(along reactor schedule (disrupted + 1)).Returned :=
      fun returned => waits ⟨disrupted, Nat.le_refl _,
        returned_of_disrupts disrupts returned⟩
    have hung : (along reactor schedule (disrupted + 1)).Hung :=
      (along_sound lawful schedule disrupted).hung_of_disrupts lawful disrupts
    rcases Nat.lt_or_ge disrupted moment with later | before
    · exact not_returned_of_hung lawful hung waitsNext later returned
    · exact waits ⟨moment, before, returned⟩
  · rintro ⟨⟨first, raised⟩, calm⟩
    by_contra waits
    have never (moment : ℕ) :
        ¬(along reactor schedule moment).Disrupts (schedule moment) := by
      intro disrupts
      obtain ⟨earlier, -, returned⟩ := calm moment disrupts
      exact waits ⟨earlier, returned⟩
    have truthful (moment : ℕ) : (along reactor schedule moment).Truthful :=
      trace_keeps Truthful (fun _ => rfl)
        (fun moment _ before =>
          (along_sound lawful schedule moment).truthful lawful before
            (never moment)) (Nat.zero_le moment)
    have free (moment : ℕ) : (along reactor schedule moment).Free :=
      trace_keeps Free (fun _ => rfl)
        (fun moment _ before =>
          (along_sound lawful schedule moment).free lawful before
            (never moment)) (Nat.zero_le moment)
    obtain ⟨last, quiet⟩ := eventually_atTop.mp signalsEnd
    have raisedLater :
        (along reactor schedule (max first last)).shared.stopFlag = true :=
      trace_keeps (fun state : Lifecycle => state.shared.stopFlag = true)
        raised (fun moment _ =>
          ((along_sound lawful schedule moment).onward lawful _).raised)
        (Nat.le_max_left first last)
    obtain ⟨moment, later, ended⟩ :=
      exists_ended lawful workerRuns raisedLater free
    refine waits (exists_returned lawful schedulerRuns ?_ ended truthful)
    exact fun next order =>
      quiet next ((Nat.le_max_right first last).trans (later.trans order))

/-- The given events, and then the scheduler thread and the worker in turn. -/
def inTurn (events : List LifecycleEvent) (moment : ℕ) : LifecycleEvent :=
  events[moment]?.getD
    (if moment % 2 = 0 then .step .scheduler else .step .worker)

theorem inTurn_of_le {events : List LifecycleEvent} {moment : ℕ}
    (later : events.length ≤ moment) :
    inTurn events moment =
      if moment % 2 = 0 then .step .scheduler else .step .worker := by
  rw [inTurn, List.getElem?_eq_none later, Option.getD_none]

theorem inTurn_scheduler (events : List LifecycleEvent) :
    ∃ᶠ moment in atTop, inTurn events moment = .step .scheduler := by
  refine frequently_atTop.mpr fun first =>
    ⟨2 * (first + events.length), by omega, ?_⟩
  rw [inTurn_of_le (by omega), if_pos (by omega)]

theorem inTurn_worker (events : List LifecycleEvent) :
    ∃ᶠ moment in atTop, inTurn events moment = .step .worker := by
  refine frequently_atTop.mpr fun first =>
    ⟨2 * (first + events.length) + 1, by omega, ?_⟩
  rw [inTurn_of_le (by omega), if_neg (by omega)]

theorem inTurn_signals (events : List LifecycleEvent) :
    ∀ᶠ moment in atTop, ∀ thread,
      inTurn events moment ≠ .signal thread := by
  refine eventually_atTop.mpr ⟨events.length, fun moment later thread => ?_⟩
  rw [inTurn_of_le later]
  split <;> simp

/-- A reactor that returns at the first iteration after it is stopped. -/
def promptReactor : Reactor := fun calls => calls.contains .stop

theorem promptReactor_lawful : promptReactor.Lawful where
  runs calls never := by
    simpa [promptReactor] using never
  stops calls stopped := by
    refine ⟨0, fun later _ => ?_⟩
    simp [promptReactor, stopped]

/-- The worker ends between the two stores of the handler. -/
def overtaken : List LifecycleEvent :=
  [.step .scheduler, .step .scheduler, .step .scheduler, .step .worker,
    .signal .scheduler, .step .scheduler, .step .scheduler,
    .step .scheduler, .step .worker, .step .worker]

/-- The handler then stores `STOPPING` over `STOPPED`, and the process never
comes to its end. -/
theorem returns_iff_overtaken :
    ¬∃ moment, (along promptReactor (inTurn overtaken) moment).Returned := by
  intro returns
  obtain ⟨-, calm⟩ := (returns_iff promptReactor_lawful (inTurn overtaken)
    (inTurn_scheduler overtaken) (inTurn_worker overtaken)
    (inTurn_signals overtaken)).mp returns
  have marks : (along promptReactor (inTurn overtaken) 10).Marks
      (inTurn overtaken 10) :=
    ⟨.scheduler, rfl, Or.inl rfl⟩
  obtain ⟨earlier, order, returned⟩ := calm 10 (Or.inl ⟨rfl, marks⟩)
  have notYet : ∀ earlier ≤ 10,
      ¬(along promptReactor (inTurn overtaken) earlier).scheduler =
        .closing .passed := by
    decide
  exact notYet earlier order returned

theorem iterations_advance (raised : state.shared.stopFlag = true)
    (event : LifecycleEvent) :
    (state.advance reactor event).shared.iterations =
      state.shared.iterations := by
  cases event with
  | signal thread =>
      simp only [advance]
      split <;> rfl
  | step thread =>
      simp only [advance]
      split
      · rename_i place outer inner
        cases place with
        | halting => rfl
        | closing place => exact place.iterations_advance state.shared
      · cases thread with
        | scheduler =>
            simp only [goOn]
            cases state.scheduler with
            | checking | storing | launching | networking => rfl
            | closing place => exact place.iterations_advance state.shared
        | worker =>
            simp only [goOn, Shared.runWorker, raised, if_true]
            split <;> rfl
        | other => rfl

/-- Once the stop flag is up the worker begins no iteration any more, whoever
is started, stopped or interrupted. -/
theorem iterations_of_raised (lawful : reactor.Lawful)
    {schedule : ℕ → LifecycleEvent} {first : ℕ}
    (raised : (along reactor schedule first).shared.stopFlag = true)
    {moment : ℕ} (later : first ≤ moment) :
    (along reactor schedule moment).shared.iterations =
      (along reactor schedule first).shared.iterations := by
  have both : (along reactor schedule moment).shared.stopFlag = true ∧
      (along reactor schedule moment).shared.iterations =
        (along reactor schedule first).shared.iterations := by
    refine trace_keeps (fun state : Lifecycle =>
      state.shared.stopFlag = true ∧ state.shared.iterations =
        (along reactor schedule first).shared.iterations) ⟨raised, rfl⟩ ?_ later
    exact fun moment _ before =>
      ⟨((along_sound lawful schedule moment).onward lawful _).raised before.1,
        (iterations_advance before.1 _).trans before.2⟩
  exact both.2

end Lifecycle

end Foundation
end Spaceless
