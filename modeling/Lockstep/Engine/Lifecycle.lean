import Lockstep.Engine.Drive
set_option autoImplicit false

/-!
# Making and shutting down engines

An engine is made of a valid configuration.  Shutting it down stops its
workers, gives up its pool and fails every operation that remains.  An engine
that was shut down still accepts queries and advances batches, but a second
shutdown does nothing.
-/

namespace Lockstep.Engine

/-- A new engine over a graph, which has logged its start. -/
def fresh (config : Config) (names : Names) (graph : Graph) : Engine :=
  let e : Engine := {
    config := config
    names := names
    registry := .ofCapacity config.registryCapacity
    scans := { graph := graph }
    ledger := { retention := config.retentionMs }
    pool := some (.ofSize "worker" config.numWorkers)
    numWorkers := config.numWorkers }
  e.note (Event.engineStart.entry [
    ("instance", names.engine),
    ("batch_size", toString config.batchSize),
    ("stride", toString config.stride),
    ("num_workers", toString config.numWorkers)])

/-- Make an engine over a graph, if its configuration is valid. -/
def create (config : Config) (names : Names) (graph : Graph) :
    Except EngineError Engine :=
  match config.validate with
  | .error fault => .error (.invalidConfig (ConfigError.invalid fault).message)
  | .ok () => .ok (fresh config names graph)

theorem create_eq_ok_iff {config : Config} {names : Names} {graph : Graph}
    {e : Engine} :
    create config names graph = .ok e ↔ config.validate = .ok () ∧
      e = fresh config names graph := by
  unfold create
  cases config.validate with
  | error fault => simp
  | ok valid => simp [eq_comm]

/-- Tasks that wait in the pool or run. -/
def inFlight (e : Engine) : Nat := (e.pool.map WorkerPool.inFlight).getD 0

/-- Replace the pool by one of another size. -/
def setNumWorkers (e : Engine) (workers : Nat) : Except EngineError Unit × Engine :=
  if workers = 0 then (.error (.invalidConfig "num_workers must be >= 1"), e)
  else if e.propagating then (.error .propagationRunning, e)
  else
    match e.pool with
    | none => (.error (.poolUnavailable closedReason), e)
    | some pool =>
      if 0 < pool.inFlight then
        (.error (.poolUnavailable (toString pool.inFlight ++ " tasks in flight")), e)
      else
        (.ok (),
          { e with pool := some (.ofSize "worker" workers), numWorkers := workers }.note
          (Event.poolRecreated.entry [("workers", toString workers)]))

/-- Why operations fail at a shutdown. -/
def abandonFailure : Failure :=
  ⟨.executionFailed, "engine shut down before the operation completed"⟩

/-- Fail batches that left the registry: how many members they had. -/
def abandonBatches (e : Engine) : List Batch → Nat → Except Crash Nat × Engine
  | [], count => (.ok count, e)
  | b :: others, count =>
    if b.locked then e.abandonBatches others count
    else
      let a := b.failAll e.receiver abandonFailure e.scans
      let e := e.receiveAll a.deliveries
      match a.ending with
      | .crashed crash => (.error crash, e)
      | .failed members _ => e.abandonBatches others (count + members)
      | _ => e.abandonBatches others count

/-- Fail every operation that remains: how many were reported. -/
def abandonRemaining (e : Engine) : Except Crash Nat × Engine :=
  let (operations, queue) := e.queue.drainAll
  let e := { e with queue := queue }
  match e.completeAll
      (operations.map fun op => ⟨op, .failed abandonFailure.display⟩) with
  | (e, some crash) => (.error crash, e)
  | (e, none) =>
    let (batches, registry) := e.registry.drain
    match { e with registry := registry }.abandonBatches batches operations.length with
    | (.error crash, e) => (.error crash, e)
    | (.ok count, e) =>
      if 0 < count then
        (.ok count,
          e.note (Event.operationsAbandoned.entry [("count", toString count)]))
      else (.ok count, e)

/-- Shut the engine down. -/
def shutdown (e : Engine) : Except Crash Unit × Engine :=
  let e := e.stopPropagation.2
  match e.pool with
  | none => (.ok (), e)
  | some _ =>
    match { e with pool := none }.abandonRemaining with
    | (.error crash, e) => (.error crash, e)
    | (.ok count, e) =>
      (.ok (), e.note (Event.engineShutdown.entry
        [("instance", e.names.engine), ("abandoned", toString count)]))

end Lockstep.Engine
