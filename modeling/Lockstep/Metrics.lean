import Lockstep.Value.Basic
set_option autoImplicit false

/-!
# Metrics

Counters of an engine.  They are 64-bit words and start again at zero behind the
largest.
-/

namespace Lockstep

/-- The counters of an engine. -/
structure Metrics where
  queriesDeferred : UInt64 := 0
  queriesCompleted : UInt64 := 0
  queriesFailed : UInt64 := 0
  batchesFormed : UInt64 := 0
  batchesDrained : UInt64 := 0
  batchesRejected : UInt64 := 0
  roundsPropagated : UInt64 := 0
  roundsAborted : UInt64 := 0
  tasksDispatched : UInt64 := 0
  outcomesEvicted : UInt64 := 0
  deriving DecidableEq, Repr, Inhabited

namespace Metrics

/-- Count a deferred query. -/
def countDeferred (m : Metrics) : Metrics :=
  { m with queriesDeferred := m.queriesDeferred + 1 }

/-- Count a completed query. -/
def countCompleted (m : Metrics) : Metrics :=
  { m with queriesCompleted := m.queriesCompleted + 1 }

/-- Count a failed query. -/
def countFailed (m : Metrics) : Metrics :=
  { m with queriesFailed := m.queriesFailed + 1 }

/-- Count a batch that was formed. -/
def countFormed (m : Metrics) : Metrics :=
  { m with batchesFormed := m.batchesFormed + 1 }

/-- Count a batch that left the registry empty. -/
def countDrained (m : Metrics) : Metrics :=
  { m with batchesDrained := m.batchesDrained + 1 }

/-- Count a batch that could not be formed. -/
def countRejected (m : Metrics) : Metrics :=
  { m with batchesRejected := m.batchesRejected + 1 }

/-- Add completed rounds. -/
def addRounds (m : Metrics) (rounds : UInt64) : Metrics :=
  { m with roundsPropagated := m.roundsPropagated + rounds }

/-- Count an aborted round. -/
def countAborted (m : Metrics) : Metrics :=
  { m with roundsAborted := m.roundsAborted + 1 }

/-- Count a task handed to the worker pool. -/
def countDispatched (m : Metrics) : Metrics :=
  { m with tasksDispatched := m.tasksDispatched + 1 }

/-- Count outcomes that were dropped. -/
def addEvicted (m : Metrics) (count : Nat) : Metrics :=
  { m with outcomesEvicted := m.outcomesEvicted + UInt64.ofNat count }

/-- A counter as a value. -/
private def word (n : UInt64) : Value := .nat n.toNat

/-- The counters by name. -/
def toValue (m : Metrics) : Value :=
  .ofFields [
    ("queries_deferred", word m.queriesDeferred),
    ("queries_completed", word m.queriesCompleted),
    ("queries_failed", word m.queriesFailed),
    ("batches_formed", word m.batchesFormed),
    ("batches_drained", word m.batchesDrained),
    ("batches_rejected", word m.batchesRejected),
    ("rounds_propagated", word m.roundsPropagated),
    ("rounds_aborted", word m.roundsAborted),
    ("tasks_dispatched", word m.tasksDispatched),
    ("outcomes_evicted", word m.outcomesEvicted)]

end Metrics

end Lockstep
