import Lockstep.Log.Line
set_option autoImplicit false

/-!
# Events

The things that the engine logs.  An event that reports a failure is a
warning, every other one plain information; what concerns a single operation
can also be traced.
-/

namespace Lockstep

/-- Something that happens to an engine. -/
inductive Event where
  | engineStart
  | engineShutdown
  | configLoaded
  | poolRecreated
  | taskPanicked
  | operationsAbandoned
  | queryDeferred
  | batchFormed
  | batchRejected
  | batchDrained
  | batchFailed
  | roundAborted
  | operationComplete
  | operationFailed
  | propagationStart
  | propagationStop
  deriving DecidableEq, Repr, Inhabited

namespace Event

/-- The name of the event in log lines. -/
def name : Event → String
  | .engineStart => "ENGINE_START"
  | .engineShutdown => "ENGINE_SHUTDOWN"
  | .configLoaded => "CONFIG_LOADED"
  | .poolRecreated => "POOL_RECREATED"
  | .taskPanicked => "TASK_PANICKED"
  | .operationsAbandoned => "OPERATIONS_ABANDONED"
  | .queryDeferred => "QUERY_DEFERRED"
  | .batchFormed => "BATCH_FORMED"
  | .batchRejected => "BATCH_REJECTED"
  | .batchDrained => "BATCH_DRAINED"
  | .batchFailed => "BATCH_FAILED"
  | .roundAborted => "ROUND_ABORTED"
  | .operationComplete => "OPERATION_COMPLETE"
  | .operationFailed => "OPERATION_FAILED"
  | .propagationStart => "PROPAGATION_START"
  | .propagationStop => "PROPAGATION_STOP"

/-- Every event, grouped by what it concerns. -/
def all : List Event :=
  [.engineStart, .engineShutdown, .configLoaded, .poolRecreated, .taskPanicked,
    .operationsAbandoned, .queryDeferred, .batchFormed, .batchRejected, .batchDrained,
      .batchFailed,
    .roundAborted, .operationComplete, .operationFailed, .propagationStart,
      .propagationStop]

theorem mem_all (e : Event) : e ∈ all := by
  cases e <;> decide

/-- Whether the event reports a failure. -/
def isFailure : Event → Bool
  | .batchFailed | .operationFailed | .batchRejected | .taskPanicked
  | .operationsAbandoned => true
  | _ => false

/-- The entry that reports the event. -/
def entry (e : Event) (fields : List (String × String)) : LogEntry :=
  ⟨if e.isFailure then .warn else .info, e.name, fields⟩

/-- The entry that traces the event. -/
def traced (e : Event) (fields : List (String × String)) : LogEntry :=
  ⟨.trace, e.name, fields⟩

end Event

end Lockstep
