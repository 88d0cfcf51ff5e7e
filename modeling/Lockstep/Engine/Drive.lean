import Lockstep.Engine.Basic
set_option autoImplicit false

/-!
# Driving an engine

Batches are advanced one at a time, by workers that look for the oldest batch
that may advance, or by tasks that a dispatcher hands to a pool.  Which worker
advances a batch makes no difference to what becomes of it, so here every
advance happens when it is asked for.

The drains go on until no operation remains.  Each turn forms a batch or
advances one, or else waits until a retry is due; `drainBound` says how many
turns that takes at most.  Time may pass before each turn, as the monad tells in
which a drain runs.  A drain outside of any takes no time but for its waits.
-/

namespace Lockstep

/-- How many rows a source can still give, at most. -/
def Source.remaining (g : Graph) : Source → Nat
  | .graph _ position => g.nodes.size - position
  | .script entries => entries.length

namespace Engine

/-- Take over what an attempt to advance left. -/
def settle (e : Engine) (turn : Turn) : Engine :=
  let e :=
    { e with registry := turn.registry, scans := turn.scans, metrics := turn.metrics }
  let e := e.receiveAll turn.deliveries
  { e with log := e.log ++ turn.entries.toArray }

/-- Advance the oldest batch that may: what it did, or none if no batch may. -/
def advanceNext (e : Engine) : Except Crash (Option Report) × Engine :=
  let turn := e.scheduler.advanceNext e.receiver e.now e.registry e.scans e.metrics
  let e := e.settle turn
  match turn.crash with
  | some crash => (.error crash, e)
  | none => (.ok turn.report, e)

/-- Advance the batch of an index if it may. -/
def advanceIndex (e : Engine) (index : Nat) : Except Crash (Option Report) × Engine :=
  let turn :=
    e.scheduler.advanceIndex e.receiver e.now index e.registry e.scans e.metrics
  let e := e.settle turn
  match turn.crash with
  | some crash => (.error crash, e)
  | none => (.ok turn.report, e)

/-- The earliest time at which a batch that waits for a retry may go on. -/
def nextRetry? (e : Engine) : Option Nat :=
  (e.registry.batches.filterMap (·.retryAt)).filter (e.now < ·) |>.min?

/-- Let time pass until the next retry is due.  A drain waits only when no batch
may advance; whatever time passes while batches are advanced is told by the
monad in which it runs. -/
def awaitRetry (e : Engine) : Engine :=
  match e.nextRetry? with
  | some time => { e with now := time }
  | none => e

/-- How many turns a scan takes at most: each row and the end, with every
retry before it. -/
def scanBound (e : Engine) (op : Operation) : Nat :=
  ((e.scans.cursor op.pipeline.cursor).source.remaining e.scans.graph + 2) *
    (e.config.maxRoundRetries.toNat + 2)

/-- How many turns a drain takes at most: half of them wait. -/
def drainBound (e : Engine) : Nat :=
  let operations := e.queue.operations ++ e.registry.batches.flatMap (·.members)
  2 * ((operations.map e.scanBound).foldr (· + ·) 0 + operations.length + 1)

/-- Form a batch as part of a drain: only a crash stops the drain. -/
def formQuietly (e : Engine) : Option Crash × Engine :=
  match e.formBatch with
  | (.error (.crashed crash), e) => (some crash, e)
  | (_, e) => (none, e)

/-- The clocks show that so much time has passed since the engine was made. -/
def elapse (e : Engine) (reading : Nat) : Engine :=
  { e with clock := reading, now := max e.now reading }

variable {m : Type → Type} [Monad m]

/-- Take turns until no operation remains, at most `fuel` of them, and let time
pass before each; a turn that stops ends the drain. -/
def drainIn (pass : Engine → m Engine) (turn : Engine → Except Stop Unit × Engine) :
    Nat → Engine → m (Except Stop Unit × Engine)
  | 0, e => pure (.ok (), e)
  | fuel + 1, e =>
    if e.remaining = 0 then pure (.ok (), e)
    else do
      match turn (← pass e) with
      | (.ok (), e) => drainIn pass turn fuel e
      | (.error stop, e) => pure (.error stop, e)

/-- A drain that takes no time but for the waits of its turns. -/
def drainBy (turn : Engine → Except Stop Unit × Engine) (fuel : Nat) (e : Engine) :
    Except Stop Unit × Engine := Id.run (drainIn pure turn fuel e)

theorem drainBy_succ (turn : Engine → Except Stop Unit × Engine) (fuel : Nat) (e : Engine) :
    drainBy turn (fuel + 1) e =
      if e.remaining = 0 then (.ok (), e)
      else match turn e with
        | (.ok (), e) => drainBy turn fuel e
        | (.error stop, e) => (.error stop, e) := by
  unfold drainBy
  rw [drainIn]
  split <;> rfl

/-- Form a batch, then advance one or let time pass. -/
def advanceTurn (e : Engine) : Except Stop Unit × Engine :=
  match e.formQuietly with
  | (some crash, e) => (.error (.crashed crash), e)
  | (none, e) =>
    match e.advanceNext with
    | (.error crash, e) => (.error (.crashed crash), e)
    | (.ok (some _), e) => (.ok (), e)
    | (.ok none, e) => (.ok (), e.awaitRetry)

/-- Form and advance batches until no operation remains. -/
def runUntilDrained (e : Engine) : Except Stop Unit × Engine :=
  if e.propagating then (.error (.error .propagationRunning), e)
  else drainBy advanceTurn e.drainBound e

/-- Start the workers that advance batches on their own. -/
def startPropagation (e : Engine) : Except EngineError Unit × Engine :=
  if e.propagating then (.error .propagationRunning, e)
  else
    (.ok (), { e with propagating := true }.note
      (Event.propagationStart.entry [("workers", toString e.numWorkers)]))

/-- Stop the workers: whether any were running. -/
def stopPropagation (e : Engine) : Bool × Engine :=
  if e.propagating then
    (true, { e with propagating := false }.note
      (Event.propagationStop.entry [("remaining", toString e.remaining)]))
  else (false, e)

/-- The pool of the workers that advance batches on their own. -/
def propagationPool (e : Engine) : WorkerPool := .ofSize "propagate" e.numWorkers

/-- Form a batch, then let a worker advance one or let time pass.  A crash of
the worker is logged. -/
def propagateTurn (e : Engine) : Except Stop Unit × Engine :=
  match e.formQuietly with
  | (some crash, e) => (.error (.crashed crash), e)
  | (none, e) =>
    match e.advanceNext with
    | (.error crash, e) => (.ok (), e.note (e.propagationPool.crashEntry crash))
    | (.ok (some _), e) => (.ok (), e)
    | (.ok none, e) => (.ok (), e.awaitRetry)

/-- Let workers advance batches while batches are formed, until no operation
remains.  After a crash in forming a batch the workers go on. -/
def propagateIn (pass : Engine → m Engine) (e : Engine) :
    m (Except Stop Unit × Engine) :=
  match e.startPropagation with
  | (.error error, e) => pure (.error (.error error), e)
  | (.ok (), e) => do
    match ← drainIn pass propagateTurn e.drainBound e with
    | (.ok (), e) => pure (.ok (), e.stopPropagation.2)
    | stopped => pure stopped

/-- Let workers advance batches, with no time passing but for the waits. -/
def propagateUntilDrained (e : Engine) : Except Stop Unit × Engine :=
  Id.run (propagateIn pure e)

theorem propagateUntilDrained_eq (e : Engine) :
    e.propagateUntilDrained = match e.startPropagation with
      | (.error error, e) => (.error (.error error), e)
      | (.ok (), e) =>
        match drainBy propagateTurn e.drainBound e with
        | (.ok (), e) => (.ok (), e.stopPropagation.2)
        | stopped => stopped := by
  unfold propagateUntilDrained propagateIn
  split <;> rfl

/-- Why nothing is dispatched any more. -/
def closedReason : String := "engine is shut down"

/-- Hand an advance of the oldest batch that may to the pool and let a worker do
it: whether there was one to hand over.  A crash of the task is logged. -/
def dispatchOne (e : Engine) : Except EngineError Bool × Engine :=
  match e.pool with
  | none => (.error (.poolUnavailable closedReason), e)
  | some pool =>
    if min (pool.workers * e.config.queueTolerance) Config.maxCount ≤ pool.queued then
      (.ok false, e)
    else
      match e.scheduler.nextDispatchable e.now e.registry with
      | none => (.ok false, e)
      | some index =>
        let e := { e with
          pool := some pool.enqueue.runOne
          metrics := e.metrics.countDispatched }
        match e.advanceIndex index with
        | (.error crash, e) => (.ok true, e.note (pool.crashEntry crash))
        | (.ok _, e) => (.ok true, e)

/-- Form a batch, then dispatch an advance or let time pass. -/
def dispatchTurn (e : Engine) : Except Stop Unit × Engine :=
  match e.formQuietly with
  | (some crash, e) => (.error (.crashed crash), e)
  | (none, e) =>
    match e.dispatchOne with
    | (.error error, e) => (.error (.error error), e)
    | (.ok true, e) => (.ok (), e)
    | (.ok false, e) => (.ok (), e.awaitRetry)

/-- Form batches and dispatch advances until no operation remains. -/
def dispatchIn (pass : Engine → m Engine) (e : Engine) :
    m (Except Stop Unit × Engine) :=
  if e.propagating then pure (.error (.error .propagationRunning), e)
  else drainIn pass dispatchTurn e.drainBound e

/-- Dispatch advances, with no time passing but for the waits. -/
def dispatchUntilDrained (e : Engine) : Except Stop Unit × Engine :=
  Id.run (dispatchIn pure e)

theorem dispatchUntilDrained_eq (e : Engine) :
    e.dispatchUntilDrained =
      if e.propagating then (.error (.error .propagationRunning), e)
      else drainBy dispatchTurn e.drainBound e := by
  unfold dispatchUntilDrained dispatchIn
  split <;> rfl

end Engine

end Lockstep
