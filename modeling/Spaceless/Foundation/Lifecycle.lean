import Mathlib.Tactic.Common
import Mathlib.Logic.Function.Basic
import Spaceless.Logic.Fairness

/-!
# Starting and stopping the worker

`Scheduler::start` starts the worker thread, runs the network reactor, and
when that returns stops the worker and waits for it.  `Scheduler::stop` stops
both and waits as well; it is called by the signal handler, on whichever
thread takes the signal, above what that thread is doing.  The threads share
the atomics `run_state` and `stop_flag` of the worker and the reactor, whose
`run` and `stop` are a parameter; one event is one access of one thread.
-/

namespace Spaceless
namespace Foundation

/-- `Worker::RunState`. -/
inductive RunState where
  | starting
  | started
  | stopping
  | stopped
  deriving DecidableEq

/-- Where the worker thread is in `Worker::run`. -/
inductive WorkerPlace where
  /-- `thread.start` was not called yet. -/
  | absent
  /-- Before `run_state = STARTED`. -/
  | entering
  /-- Before `while (!stop_flag)`. -/
  | testing
  /-- In the body of the loop. -/
  | working
  /-- Behind the loop, before `run_state = STOPPED`. -/
  | leaving
  | ended
  deriving DecidableEq

/-- What `Poco::Net::SocketReactor` is asked for: another iteration of the
loop in `run`, or `stop`. -/
inductive ReactorCall where
  | iterate
  | stop
  deriving DecidableEq

/-- Whether `run` returns after these calls. -/
def Reactor : Type := List ReactorCall → Bool

/-- `run` goes on until `stop` is called, and then for finitely many
iterations. -/
structure Reactor.Lawful (reactor : Reactor) : Prop where
  runs : ∀ calls, ReactorCall.stop ∉ calls → reactor calls = false
  stops : ∀ calls, ReactorCall.stop ∈ calls → ∃ bound, ∀ later,
    bound ≤ later.count .iterate → reactor (calls ++ later) = true

/-- What the threads share. -/
structure Shared where
  runState : RunState
  stopFlag : Bool
  /-- The calls of the reactor that `NetworkManager::start` runs. -/
  networkCalls : List ReactorCall
  worker : WorkerPlace
  /-- How many times the worker entered the body of its loop. -/
  iterations : Nat
  deriving DecidableEq

/-- Both flags are down, the reactor is not in use, and there is no thread. -/
def Shared.initial : Shared where
  runState := .stopped
  stopFlag := false
  networkCalls := []
  worker := .absent
  iterations := 0

/-- `WorkerScheduler::is_worker_running`. -/
def Shared.isWorkerRunning (shared : Shared) : Bool :=
  shared.runState ≠ .stopped

/-- `NetworkManager::stop` was called. -/
def Shared.NetworkStopped (shared : Shared) : Prop :=
  ReactorCall.stop ∈ shared.networkCalls

/-- The reactor is called. -/
def Shared.callReactor (shared : Shared) (call : ReactorCall) : Shared :=
  { shared with networkCalls := shared.networkCalls ++ [call] }

/-- One step of `Worker::run`. -/
def Shared.runWorker (shared : Shared) : Shared :=
  match shared.worker with
  | .absent => shared
  | .entering => { shared with runState := .started, worker := .testing }
  | .testing =>
      if shared.stopFlag then { shared with worker := .leaving }
      else
        { shared with
          worker := .working
          iterations := shared.iterations + 1 }
  | .working => { shared with worker := .testing }
  | .leaving => { shared with runState := .stopped, worker := .ended }
  | .ended => shared

/-- Where a thread is in `WorkerScheduler::stop` and in the loop
`while (is_worker_running())` behind it. -/
inductive StopPlace where
  /-- Before `if (run_state == STARTED)`. -/
  | loading
  /-- Before `stop_flag = true`. -/
  | raising
  /-- Before `run_state = STOPPING`. -/
  | marking
  /-- Before the condition of the loop. -/
  | waiting
  | passed
  deriving DecidableEq

/-- One step of `WorkerScheduler::stop` and the loop behind it. -/
def StopPlace.advance (shared : Shared) : StopPlace → Shared × StopPlace
  | .loading =>
      (shared, if shared.runState = .started then .raising else .waiting)
  | .raising => ({ shared with stopFlag := true }, .marking)
  | .marking => ({ shared with runState := .stopping }, .waiting)
  | .waiting => (shared, if shared.isWorkerRunning then .waiting else .passed)
  | .passed => (shared, .passed)

/-- Where a thread is in `Scheduler::stop`. -/
inductive HandlerPlace where
  /-- Before `NetworkManager::stop`. -/
  | halting
  | closing (place : StopPlace)
  deriving DecidableEq

/-- One step of `Scheduler::stop`. -/
def HandlerPlace.advance (shared : Shared) :
    HandlerPlace → Shared × HandlerPlace
  | .halting => (shared.callReactor .stop, .closing .loading)
  | .closing place =>
      ((place.advance shared).1, .closing (place.advance shared).2)

/-- Where the thread of the program is in `Scheduler::start`, whose handlers
are in place. -/
inductive SchedulerPlace where
  /-- Before `if (run_state == STOPPED)` of `WorkerScheduler::start`. -/
  | checking
  /-- Before `run_state = STARTING`. -/
  | storing
  /-- Before `thread.start`. -/
  | launching
  /-- In `NetworkManager::start`. -/
  | networking
  | closing (place : StopPlace)
  deriving DecidableEq

/-- One step of `Scheduler::start`. -/
def SchedulerPlace.advance (reactor : Reactor) (shared : Shared) :
    SchedulerPlace → Shared × SchedulerPlace
  | .checking =>
      (shared, if shared.runState = .stopped then .storing else .networking)
  | .storing => ({ shared with runState := .starting }, .launching)
  | .launching => ({ shared with worker := .entering }, .networking)
  | .networking =>
      (shared.callReactor .iterate,
        if reactor (shared.callReactor .iterate).networkCalls then
          .closing .loading
        else .networking)
  | .closing place =>
      ((place.advance shared).1, .closing (place.advance shared).2)

/-- The threads of the process. -/
inductive Thread where
  | scheduler
  | worker
  /-- The other threads, such as the one that reads the commands of the
  client. -/
  | other (index : Nat)
  deriving DecidableEq

/-- The state of the process: each thread is in the handlers of the signals
that it took, the last one first, above its own code. -/
structure Lifecycle where
  shared : Shared
  scheduler : SchedulerPlace
  handlers : Thread → List HandlerPlace

inductive LifecycleEvent where
  /-- The thread takes a signal. -/
  | signal (thread : Thread)
  /-- The thread makes a step. -/
  | step (thread : Thread)
  deriving DecidableEq

namespace Lifecycle

/-- `Scheduler::start` after its calls of `catch_signal`. -/
def start : Lifecycle where
  shared := .initial
  scheduler := .checking
  handlers := fun _ => []

/-- A handler that is over returns. -/
def push (place : HandlerPlace) (handlers : List HandlerPlace) :
    List HandlerPlace :=
  if place = .closing .passed then handlers else place :: handlers

/-- The thread goes on in its own code. -/
def goOn (reactor : Reactor) (state : Lifecycle) : Thread → Lifecycle
  | .scheduler =>
      { state with
        shared := (state.scheduler.advance reactor state.shared).1
        scheduler := (state.scheduler.advance reactor state.shared).2 }
  | .worker => { state with shared := state.shared.runWorker }
  | .other _ => state

/-- The thread goes on in its innermost handler. -/
def handle (state : Lifecycle) (thread : Thread) (place : HandlerPlace)
    (outer : List HandlerPlace) : Lifecycle :=
  { state with
    shared := (place.advance state.shared).1
    handlers := Function.update state.handlers thread
      (push (place.advance state.shared).2 outer) }

/-- One event.  There is no worker thread to take a signal before it is
started. -/
def advance (reactor : Reactor) (state : Lifecycle) :
    LifecycleEvent → Lifecycle
  | .signal thread =>
      if thread = .worker ∧ state.shared.worker = .absent then state
      else
        { state with
          handlers := Function.update state.handlers thread
            (.halting :: state.handlers thread) }
  | .step thread =>
      match state.handlers thread with
      | place :: outer => state.handle thread place outer
      | [] => state.goOn reactor thread

/-- `Scheduler::start` has returned. -/
def Returned (state : Lifecycle) : Prop :=
  state.scheduler = .closing .passed

/-- The event is a store of `STOPPING`. -/
def Marks (state : Lifecycle) (event : LifecycleEvent) : Prop :=
  ∃ thread, event = .step thread ∧
    ((state.handlers thread).head? = some (.closing .marking) ∨
      thread = .scheduler ∧ state.handlers thread = [] ∧
        state.scheduler = .closing .marking)

/-- The event takes away what the loops wait for: `STOPPING` is stored over
the `STOPPED` of a worker that has ended, or the worker itself is made to wait
for its end. -/
def Disrupts (state : Lifecycle) (event : LifecycleEvent) : Prop :=
  state.shared.worker = .ended ∧ state.Marks event ∨
    state.shared.worker ≠ .ended ∧ state.shared.worker ≠ .absent ∧
      event = .signal .worker

end Lifecycle

end Foundation
end Spaceless
