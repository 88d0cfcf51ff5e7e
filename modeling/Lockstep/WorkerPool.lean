import Lockstep.Engine.Error
import Lockstep.Log.Event
set_option autoImplicit false

/-!
# Worker pools

A pool counts the jobs that wait for a worker and those that run.  A worker that
takes a job raises the second count before it lowers the first, so a job in
between is never missed.  A job that crashes is logged and counts as finished.
A pool that was shut down takes no more jobs.
-/

namespace Lockstep

/-- The counts of a pool. -/
structure WorkerPool where
  name : String
  workers : Nat
  queued : Nat := 0
  running : Nat := 0
  isShutDown : Bool := false
  deriving DecidableEq, Repr, Inhabited

namespace WorkerPool

/-- A pool of at least one worker. -/
def ofSize (name : String) (size : Nat) : WorkerPool :=
  { name := name, workers := max size 1 }

/-- Jobs that wait or run. -/
def inFlight (p : WorkerPool) : Nat := p.queued + p.running

/-- Count a job that was submitted. -/
def enqueue (p : WorkerPool) : WorkerPool := { p with queued := p.queued + 1 }

/-- The first half of taking a job: it counts as running. -/
def raiseRunning (p : WorkerPool) : WorkerPool := { p with running := p.running + 1 }

/-- The second half of taking a job: it does not wait any more. -/
def lowerQueued (p : WorkerPool) : WorkerPool := { p with queued := p.queued - 1 }

/-- A job is done. -/
def finish (p : WorkerPool) : WorkerPool := { p with running := p.running - 1 }

/-- Take jobs while the pool is open. -/
def submit (p : WorkerPool) : Except EngineError WorkerPool :=
  if p.isShutDown then .error (.poolUnavailable "pool is shut down") else .ok p.enqueue

/-- Let a worker take a job and finish it. -/
def runOne (p : WorkerPool) : WorkerPool := p.raiseRunning.lowerQueued.finish

/-- Take no more jobs. -/
def shutDown (p : WorkerPool) : WorkerPool := { p with isShutDown := true }

/-- The entry that a crashed job is logged by. -/
def crashEntry (p : WorkerPool) (crash : Crash) : LogEntry :=
  Event.taskPanicked.entry [("pool", p.name), ("reason", crash.message)]

/-- The pool in words. -/
def describe (p : WorkerPool) : String :=
  "WorkerPool \x7b name: \"" ++ p.name ++ "\", workers: " ++ toString p.workers ++
    ", queued: " ++
    toString p.queued ++ ", in_flight: " ++ toString p.inFlight ++ " \x7d"

theorem runOne_enqueue (p : WorkerPool) : p.enqueue.runOne = p := by
  simp [runOne, enqueue, raiseRunning, lowerQueued, finish]

end WorkerPool

end Lockstep
