import Lockstep.Operation
set_option autoImplicit false

/-!
# Batches

A batch is a group of operations that are fed by one cursor, the one of its first
operation.  Forming it makes every other operation follow the first; the kinds of
all scans have to agree, and no scan may have been pulled if there is more than one.

Dissolving a batch gives back its operations as they are: fed by the common cursor.
-/

namespace Lockstep

/-- Operations advanced together over one scan. -/
structure Batch where
  /-- the name of the batch in logs -/
  id : String
  /-- the sequence number of the operation that came first at formation -/
  firstSequence : Nat
  /-- the operations still in the batch, the first one driving the scan -/
  members : List Operation
  /-- rounds completed since formation -/
  rounds : Nat := 0
  /-- rounds aborted since the last completed one -/
  abortedRounds : UInt32 := 0
  /-- the earliest time at which an aborted round may be tried again -/
  retryAt : Option Nat := none
  /-- whether someone is advancing the batch -/
  locked : Bool := false
  deriving Repr, Inhabited

/-- Operations handed back when they could not be grouped. -/
structure FormFailure where
  failure : Failure
  operations : List Operation
  deriving Repr, Inhabited

namespace Batch

/-- How many operations are in the batch. -/
def size (b : Batch) : Nat := b.members.length

/-- Make operations follow a pipeline, in order, up to the first that cannot:
the operations afterwards, and why that one could not. -/
def wire (leader : Pipeline) (s : Scans) :
    List Operation → List Operation × Option Failure
  | [] => ([], none)
  | op :: ops =>
    match op.pipeline.follow leader s with
    | .error failure => (op :: ops, some failure)
    | .ok p =>
      let (ops, failure) := wire leader s ops
      ({ op with pipeline := p.setCached true } :: ops, failure)

/-- Group operations behind the scan of the first. -/
def form (id : String) (operations : List Operation) (s : Scans) :
    Except FormFailure Batch :=
  match operations with
  | [] => .error ⟨⟨.executionFailed, "cannot form an empty batch"⟩, []⟩
  | first :: others =>
    let leader := { first with pipeline := first.pipeline.setCached false }
    match wire leader.pipeline s others with
    | (others, some failure) => .error ⟨failure, leader :: others⟩
    | (others, none) =>
      .ok { id := id, firstSequence := first.sequence, members := leader :: others }

/-- The cursor that feeds the batch. -/
def cursor (b : Batch) : CursorId :=
  match b.members with
  | [] => 0
  | op :: _ => op.pipeline.cursor

/-- Whether an aborted round may be tried again. -/
def retryDue (b : Batch) (now : Nat) : Bool :=
  match b.retryAt with
  | none => true
  | some time => time ≤ now

/-- Hold the batch back until some time. -/
def deferRetry (b : Batch) (time : Nat) : Batch := { b with retryAt := some time }

/-- The batch in words. -/
def describe (b : Batch) : String :=
  "Batch \x7b id: " ++ b.id ++ ", first_sequence: " ++ toString b.firstSequence ++
    ", live: " ++
    toString b.size ++ ", propagate_count: " ++ toString b.rounds ++ " \x7d"

end Batch

end Lockstep
