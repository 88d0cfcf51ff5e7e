import Lockstep.Pipeline.Basic
set_option autoImplicit false

/-!
# Operations and outcomes

An operation is a query that was accepted: its sequence number, its text and its
pipeline.  It ends in an outcome that keeps the rows it had by then.
-/

namespace Lockstep

/-- A query that was accepted. -/
structure Operation where
  sequence : Nat
  query : String
  pipeline : Pipeline
  deriving Repr, Inhabited

/-- How an operation ended. -/
inductive Status where
  | completed
  | failed (reason : String)
  deriving DecidableEq, Repr, Inhabited

/-- The result of an operation. -/
structure Outcome where
  sequence : Nat
  query : String
  status : Status
  steps : Nat
  rows : Array Value
  deriving Repr, Inhabited

/-- An operation that leaves its queue or batch, with its status. -/
structure Delivery where
  operation : Operation
  status : Status
  deriving Repr, Inhabited

namespace Operation

/-- Whether the operation was ever stepped. -/
def isStarted (op : Operation) : Bool := op.pipeline.isStarted

/-- Whether the operation has found the end of its rows. -/
def isFinished (op : Operation) : Bool := op.pipeline.finished

/-- Step the operation once, by a cached read or by a fresh pull. -/
def step (op : Operation) (cached : Bool) (s : Scans) :
    Except Interruption StepResult × Operation × Scans :=
  let (result, p, s) := (op.pipeline.setCached cached).step s
  (result, { op with pipeline := p }, s)

end Operation

namespace Outcome

/-- The fields that tell how the operation ended. -/
def statusFields (o : Outcome) : List (String × Value) :=
  match o.status with
  | .completed => [("status", .string "completed")]
  | .failed reason => [("status", .string "failed"), ("reason", .string reason)]

/-- The fields of the outcome, followed by others. -/
def toValue (o : Outcome) (others : List (String × Value)) : Value :=
  .ofFields ([
    ("sequence_number", .nat o.sequence),
    ("query", .string o.query),
    ("steps", .nat o.steps),
    ("rows", .array o.rows.toList)] ++ o.statusFields ++ others)

end Outcome

/-- The outcome of an operation that was delivered. -/
def Delivery.outcome (d : Delivery) : Outcome :=
  ⟨d.operation.sequence, d.operation.query, d.status,
    d.operation.pipeline.counters.steps, d.operation.pipeline.rows⟩

end Lockstep
