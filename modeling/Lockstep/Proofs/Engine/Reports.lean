import Lockstep.Proofs.Engine.Lossless
import Lockstep.Proofs.Engine.Requests
set_option autoImplicit false

/-!
# What an engine gives out

Whoever asks an engine gets answers, and the outcomes in them are taken out of
the store.  Reports of advances come out of every request that advances batches:
one by one where the caller advances a batch, and inside of a drain one for each
turn that advances one.
-/

namespace Lockstep.Engine

/-! ## Answers -/

/-- The answer to a request, as far as it is one to a call. -/
def answerTo (e : Engine) : Request → Answer
  | .call call => (e.answer call).1
  | _ => .nothing

/-- The answers to requests, in their order. -/
def answers (e : Engine) : List Request → List Answer
  | [] => []
  | request :: requests => e.answerTo request :: answers (e.request request) requests

/-- The numbers under which queries were accepted. -/
def acceptances (e : Engine) (requests : List Request) : List Nat :=
  (e.answers requests).filterMap Answer.accepted?

/-- The outcomes that were taken. -/
def takings (e : Engine) (requests : List Request) : List Outcome :=
  (e.answers requests).flatMap Answer.outcomes

/-- Whether the request shuts the engine down. -/
def Request.isShutdown : Request → Bool
  | .call .shutdown => true
  | _ => false

/-! ## Reports -/

/-- The report of an attempt to advance, if it advanced a batch. -/
def reported : Except Crash (Option Report) → List Report
  | .ok report => report.toList
  | .error _ => []

/-- The report of a turn that forms a batch and advances one. -/
def advanceReports (e : Engine) : List Report :=
  match e.formQuietly with
  | (some _, _) => []
  | (none, e) => reported e.advanceNext.1

/-- The report of the task that a dispatch hands to the pool, if it hands one over. -/
def handedReports (e : Engine) : List Report :=
  match e.pool with
  | none => []
  | some pool =>
    if min (pool.workers * e.config.queueTolerance) Config.maxCount ≤ pool.queued then
      []
    else
      match e.scheduler.nextDispatchable e.now e.registry with
      | none => []
      | some index =>
        let e := { e with
          pool := some pool.enqueue.runOne
          metrics := e.metrics.countDispatched }
        reported (e.advanceIndex index).1

/-- The report of a turn that forms a batch and dispatches an advance. -/
def dispatchReports (e : Engine) : List Report :=
  match e.formQuietly with
  | (some _, _) => []
  | (none, e) => e.handedReports

/-- The reports of the turns of a drain, in their order. -/
def drainReports (turn : Engine → Except Stop Unit × Engine)
    (reports : Engine → List Report) :
    Nat → Engine → List Report
  | 0, _ => []
  | fuel + 1, e =>
    if e.remaining = 0 then []
    else
      reports e ++
        match turn e with
        | (.ok (), e) => drainReports turn reports fuel e
        | (.error _, _) => []

/-- The reports of the advances that a request makes. -/
def reportsOf (e : Engine) : Request → List Report
  | .call .advanceNext => reported e.advanceNext.1
  | .call .runUntilDrained =>
    if e.propagating then [] else drainReports advanceTurn advanceReports e.drainBound e
  | .advanceIndex index => reported (e.advanceIndex index).1
  | .dispatchOne => e.handedReports
  | .dispatchUntilDrained =>
    if e.propagating then []
      else drainReports dispatchTurn dispatchReports e.drainBound e
  | .propagateUntilDrained =>
    match e.startPropagation with
    | (.error _, _) => []
    | (.ok (), e) => drainReports propagateTurn advanceReports e.drainBound e
  | _ => []

/-- The reports of the advances that requests make, in their order. -/
def reports (e : Engine) : List Request → List Report
  | [] => []
  | request :: requests => e.reportsOf request ++ reports (e.request request) requests

/-! ## The account -/

variable {e : Engine}

theorem Accounts.continues_of_moves {e' : Engine} (h : e.Accounts)
    (moves : Moves e e') :
    Continues e .nothing e' where
  accounts := h.moves moves
  retention := (carries_of_moves moves).retention
  numbers := by
    rw [(carries_of_moves moves).next]
    exact (List.append_nil _).symm
  delivered := (carries_of_moves moves).delivered

/-- Every request continues the account, unless it loses an operation. -/
theorem Accounts.request (h : e.Accounts) (request : Request)
    (clock : ∀ time, request = .call (.tick time) →
      (Calendar.instant? (time - e.ledger.retention)).isSome = true)
    (steady : (e.answerTo request).isLoss = false) :
    Continues e (e.answerTo request) (e.request request) := by
  cases request with
  | call call =>
    exact h.answer call (fun time htime => clock time (congrArg _ htime)) steady
  | advanceIndex index =>
    exact h.continues_of_moves (.single (e.move_advanceIndex index))
  | dispatchOne => exact h.continues_of_moves e.moves_dispatchOne
  | dispatchUntilDrained => exact h.continues_of_moves e.moves_dispatchUntilDrained
  | propagateUntilDrained => exact h.continues_of_moves e.moves_propagateUntilDrained
  | startPropagation => exact h.continues_of_moves e.moves_startPropagation
  | stopPropagation => exact h.continues_of_moves e.moves_stopPropagation
  | setNumWorkers workers =>
    exact h.continues_of_moves (.single (e.move_setNumWorkers workers))

/-- What remains was accepted and not delivered. -/
theorem Accounts.remaining_add (h : e.Accounts) :
    e.remaining + e.delivered.length = e.queue.nextSequence := by
  have hlength := h.numbers.length_eq
  rw [List.length_append, List.length_range, ← remaining_eq] at hlength
  rw [← hlength]
  exact congrArg (e.remaining + ·) (List.length_map _).symm

/-- No operation is delivered twice. -/
theorem Accounts.nodup_completed (h : e.Accounts) : e.completed.Nodup :=
  (List.nodup_append.mp (h.numbers.nodup_iff.mpr List.nodup_range)).2.1

end Lockstep.Engine
