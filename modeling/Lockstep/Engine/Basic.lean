import Lockstep.Config
import Lockstep.Ledger
import Lockstep.Outcomes
import Lockstep.Query.Plan
import Lockstep.Queue
import Lockstep.Scheduler
import Lockstep.WorkerPool
set_option autoImplicit false

/-!
# Engines

An engine accepts queries, groups them into batches and keeps the outcomes.  An
accepted operation waits in the queue, or is in a registered batch, or has been
completed; it moves on in this order only, except that an operation stepped on
its own goes back to its place in the queue.

All that can happen to an engine is a function of its state: clocks, names and
the graph are part of it, and what it would log is collected in order.
-/

namespace Lockstep

/-- Why a call gave no answer. -/
inductive Stop where
  | error (error : EngineError)
  | crashed (crash : Crash)
  deriving DecidableEq, Repr, Inhabited

/-- The names that an engine gives to itself and to its batches in logs. -/
structure Names where
  engine : String
  batch : Nat → String

instance : Inhabited Names := ⟨⟨"", fun _ => ""⟩⟩

/-- An engine. -/
structure Engine where
  config : Config
  names : Names
  queue : Queue := {}
  registry : Registry
  scans : Scans
  ledger : Ledger
  /-- what the ledger's clock shows -/
  clock : Int := 0
  /-- milliseconds since the engine was made, by a clock that waits for
  retries are told by -/
  now : Nat := 0
  outcomes : List Outcome := []
  /-- every delivery that was taken, the newest first -/
  delivered : List Delivery := []
  metrics : Metrics := {}
  /-- batches that were formed, which names them -/
  batchesNamed : Nat := 0
  /-- the pool for dispatched tasks, while the engine is not shut down -/
  pool : Option WorkerPool
  numWorkers : Nat
  /-- whether workers advance batches on their own -/
  propagating : Bool := false
  log : Array LogEntry := #[]
  deriving Inhabited

namespace Engine

/-- Log an entry. -/
def note (e : Engine) (entry : LogEntry) : Engine := { e with log := e.log.push entry }

/-- The rules by which the engine advances batches. -/
def scheduler (e : Engine) : Scheduler :=
  ⟨e.config.stride, e.config.maxRoundRetries, e.config.retryBackoffMs⟩

/-- The engine as a receiver of deliveries: it crashes when the ledger does. -/
def receiver (e : Engine) : Receiver := e.ledger.obstacle? e.clock

/-- Operations that wait. -/
def pendingCount (e : Engine) : Nat := e.queue.size

/-- Operations in batches. -/
def batchedCount (e : Engine) : Nat := e.registry.operations

/-- Live batches. -/
def batchCount (e : Engine) : Nat := e.registry.live

/-- Operations that were accepted and are not completed. -/
def remaining (e : Engine) : Nat := e.pendingCount + e.batchedCount

/-- Keep an outcome. -/
def keep (e : Engine) (outcome : Outcome) : Engine :=
  let (outcomes, dropped) := Outcomes.store e.config.outcomeCapacity outcome e.outcomes
  { e with outcomes := outcomes, metrics := e.metrics.addEvicted dropped }

/-- Take an operation that completed. -/
def completeOk (e : Engine) (op : Operation) : Engine × Option Crash :=
  match e.ledger.recordCompletion e.clock op.sequence with
  | (ledger, some crash) => ({ e with ledger := ledger }, some crash)
  | (ledger, none) =>
    let e := { e with ledger := ledger, metrics := e.metrics.countCompleted }
    let e := e.note (Event.operationComplete.traced
      [("sequence", toString op.sequence), ("rows", toString op.pipeline.rows.size)])
    (e.keep (Delivery.outcome ⟨op, .completed⟩), none)

/-- Take an operation that failed. -/
def completeFailed (e : Engine) (op : Operation) (reason : String) :
    Engine × Option Crash :=
  match e.ledger.recordFailure e.clock op.sequence with
  | (ledger, some crash) => ({ e with ledger := ledger }, some crash)
  | (ledger, none) =>
    let e := { e with ledger := ledger, metrics := e.metrics.countFailed }
    let e := e.note (Event.operationFailed.entry
      [("sequence", toString op.sequence), ("reason", reason)])
    (e.keep (Delivery.outcome ⟨op, .failed reason⟩), none)

/-- Take a delivery: record its end, count it, log it and keep its outcome.  If
the ledger crashes, nothing after that is done. -/
def complete (e : Engine) (d : Delivery) : Engine × Option Crash :=
  let e := { e with delivered := d :: e.delivered }
  match d.status with
  | .completed => e.completeOk d.operation
  | .failed reason => e.completeFailed d.operation reason

/-- Take deliveries, up to a crash. -/
def completeAll (e : Engine) : List Delivery → Engine × Option Crash
  | [] => (e, none)
  | d :: others =>
    match e.complete d with
    | (e, some crash) => (e, some crash)
    | (e, none) => e.completeAll others

/-- Take deliveries that were made one by one, whatever came of each. -/
def receiveAll (e : Engine) (deliveries : List Delivery) : Engine :=
  deliveries.foldl (fun e d => (e.complete d).1) e

/-- Accept a query: plan it, open its scan and put it into the queue.  No row is
read. -/
def execute (e : Engine) (planner : String → Except Failure Plan) (query : String) :
    Except EngineError Nat × Engine :=
  match planner query with
  | .error failure => (.error (.query failure), e)
  | .ok plan =>
    let (pipeline, scans) := plan.openScan e.scans
    let (sequence, queue) := e.queue.enqueue query pipeline
    let e := { e with
      scans := scans
      queue := queue
      ledger := e.ledger.recordStart e.clock sequence
      metrics := e.metrics.countDeferred }
    (.ok sequence,
      e.note (Event.queryDeferred.traced [("sequence", toString sequence)]))

/-- Count and log that a batch of so many operations was not formed. -/
def reject (e : Engine) (size : Nat) (reason : String) : Engine :=
  { e with metrics := e.metrics.countRejected }.note
    (Event.batchRejected.entry [("size", toString size), ("reason", reason)])

/-- Why a batch is rejected for want of room. -/
def fullReason : String := "registry full"

/-- Register a batch that was formed, or put its operations back if there is no room. -/
def register (e : Engine) (batch : Batch) : Except Stop (Option Nat) × Engine :=
  match e.registry.insert? batch with
  | some (index, registry) =>
    let e := { e with registry := registry, metrics := e.metrics.countFormed }
    (.ok (some index), e.note (Event.batchFormed.entry
      [("batch", batch.id), ("index", toString index), ("size", toString batch.size),
        ("first_sequence", toString batch.firstSequence)]))
  | none =>
    let e := { e with queue := e.queue.restoreFront batch.members }
    (.error (.error (.registryFull e.registry.capacity)),
      e.reject batch.size fullReason)

/-- Form a batch of the operations in front of the queue and register it: its
index, or none if nothing waits.  If the registry is full nothing is taken from
the queue.  If the scans cannot be shared, all that was taken fails. -/
def formBatch (e : Engine) : Except Stop (Option Nat) × Engine :=
  if e.registry.isFull then
    (.error (.error (.registryFull e.registry.capacity)), e.reject 0 fullReason)
  else
    let (operations, queue) := e.queue.drainBatch e.config.batchSize
    if operations.isEmpty then (.ok none, e)
    else
      let e := { e with queue := queue }
      match Batch.form (e.names.batch e.batchesNamed) operations e.scans with
      | .ok batch => { e with batchesNamed := e.batchesNamed + 1 }.register batch
      | .error ⟨failure, operations⟩ =>
        let e := e.reject operations.length failure.message
        match e.completeAll
            (operations.map fun op => ⟨op, .failed failure.display⟩) with
        | (e, some crash) => (.error (.crashed crash), e)
        | (e, none) => (.error (.error (.query failure)), e)

/-- Form batches until nothing waits, at most `fuel` of them: how many were formed. -/
def formBatches (e : Engine) : Nat → Nat → Except Stop Nat × Engine
  | 0, formed => (.ok formed, e)
  | fuel + 1, formed =>
    match e.formBatch with
    | (.ok none, e) => (.ok formed, e)
    | (.ok (some _), e) => e.formBatches fuel (formed + 1)
    | (.error stop, e) => (.error stop, e)

/-- Form batches until nothing waits.  Each takes at least one operation. -/
def formAllBatches (e : Engine) : Except Stop Nat × Engine :=
  e.formBatches (e.pendingCount + 1) 0

/-- Step the waiting operation at an index on its own: whether it completed.
A crash loses it. -/
def propagateAt (e : Engine) (index : Nat) : Except Stop Bool × Engine :=
  match e.queue.takeAt? index with
  | none => (.ok false, e)
  | some (op, queue) =>
    let (result, op, scans) := op.step false e.scans
    let e := { e with queue := queue, scans := scans }
    let back := { e with queue := e.queue.reinsert index op }
    match result with
    | .ok .finished =>
      match e.complete ⟨op, .completed⟩ with
      | (e, some crash) => (.error (.crashed crash), e)
      | (e, none) => (.ok true, e)
    | .ok _ => (.ok false, back)
    | .error (.crashed crash) => (.error (.crashed crash), e)
    | .error (.failed failure) =>
      if failure.isTransient then (.error (.error (.query failure)), back)
      else
        match e.complete ⟨op, .failed failure.display⟩ with
        | (e, some crash) => (.error (.crashed crash), e)
        | (e, none) => (.error (.error (.query failure)), e)

/-- Step the operation in front on its own. -/
def propagateFirst (e : Engine) : Except Stop Bool × Engine := e.propagateAt 0

/-- Take the outcome of an operation. -/
def takeOutcome (e : Engine) (sequence : Nat) : Option Outcome × Engine :=
  match Outcomes.take? sequence e.outcomes with
  | some (outcome, outcomes) => (some outcome, { e with outcomes := outcomes })
  | none => (none, e)

/-- Take every outcome, by sequence number. -/
def takeOutcomes (e : Engine) : List Outcome × Engine :=
  (e.outcomes, { e with outcomes := [] })

end Engine

end Lockstep
