import Lockstep.Engine.Error
import Lockstep.Log.Event
import Lockstep.Metrics
import Lockstep.Registry
set_option autoImplicit false

/-!
# Advancing registered batches

A batch may advance when the one before it has left the registry or is ahead of
it by the stride, and when the wait after an aborted round is over.  Of the
batches that may, the oldest goes first.

The wait starts at a backoff and doubles with each further aborted round in a
row, six times at most.  A crash during an advance fails the batch and goes no
further, unless the receiver of its members crashes again.
-/

namespace Lockstep

/-- The rules of advancing. -/
structure Scheduler where
  /-- rounds of one advance, and the lead that a batch needs over the next -/
  stride : Nat
  maxRetries : UInt32
  /-- the wait after a first aborted round, in milliseconds -/
  backoff : Nat := 0
  deriving Repr, Inhabited

/-- What one advance of a registered batch did. -/
structure Report where
  index : Nat
  rounds : Nat
  completedAny : Bool
  drained : Bool
  aborted : Bool
  deriving DecidableEq, Repr, Inhabited

/-- What an attempt to advance left behind. -/
structure Turn where
  /-- none if no batch was advanced -/
  report : Option Report
  registry : Registry
  scans : Scans
  metrics : Metrics
  deliveries : List Delivery := []
  entries : List LogEntry := []
  /-- a crash that nothing caught -/
  crash : Option Crash := none
  deriving Repr, Inhabited

/-- The largest count of rounds. -/
def maxRounds : Nat := 0xFFFFFFFFFFFFFFFF

/-- Whether a batch of so many rounds may advance behind one of `predecessor` rounds. -/
def gateOpen (predecessor : Option Nat) (rounds stride : Nat) : Bool :=
  match predecessor with
  | none => true
  | some ahead => min (rounds + stride) maxRounds ≤ ahead

namespace Scheduler

/-- How often the wait doubles at most. -/
def maxDoublings : Nat := 6

/-- The longest wait that can be told, in milliseconds. -/
def maxDelay : Nat := 0xFFFFFFFFFFFFFFFF * 1000 + 999

/-- The wait after so many aborted rounds in a row. -/
def retryDelay (sch : Scheduler) (aborted : Nat) : Nat :=
  min (sch.backoff * Nat.pow 2 (min (aborted - 1) maxDoublings)) maxDelay

/-- The rounds of the batch before an index, if it is live. -/
def predecessorRounds (r : Registry) (index : Nat) : Option Nat :=
  if index ≤ r.oldest then none else (r.get? (index - 1)).map (·.rounds)

/-- Whether the batch of an index is far enough behind the one before it. -/
def isEligible (sch : Scheduler) (r : Registry) (index : Nat) (b : Batch) : Bool :=
  gateOpen (predecessorRounds r index) b.rounds sch.stride

/-- The gate is always open for the oldest batch. -/
theorem isEligible_oldest (sch : Scheduler) (r : Registry) (b : Batch) :
    sch.isEligible r r.oldest b = true := by
  simp [isEligible, predecessorRounds, gateOpen]

/-- The entry that an error of an advance is logged by. -/
def errorEntry (batch index : String) : EngineError → LogEntry
  | .roundAborted reason =>
    Event.roundAborted.entry
      [("batch", batch), ("index", index), ("code", reason.code.text),
      ("reason", reason.message)]
  | e =>
    Event.batchFailed.entry [("batch", batch), ("index", index), ("code", e.code),
      ("reason", e.display)]

/-- The failure that a crash of an advance is turned into. -/
def crashFailure (crash : Crash) : Failure :=
  ⟨.executionFailed, "advance panicked: " ++ crash.message⟩

/-- Run an advance, and fail the batch if it crashes. -/
def guardedAdvance (sch : Scheduler) (receiver : Receiver) (b : Batch) (s : Scans) :
    Advance :=
  let a := b.advance receiver sch.maxRetries sch.stride s
  match a.ending with
  | .crashed crash =>
    let failed := a.batch.failAll receiver (crashFailure crash) a.scans
    { failed with deliveries := a.deliveries ++ failed.deliveries }
  | _ => a

/-- Settle an advance of the batch of an index: log its error, set the wait if a
round was aborted, and remove the batch if it is empty. -/
def settle (sch : Scheduler) (now index before : Nat) (a : Advance) (r : Registry)
    (m : Metrics) :
    Turn :=
  let aborted := match a.ending with
    | .aborted _ => true
    | _ => false
  let b :=
    if aborted then
      a.batch.deferRetry (now + sch.retryDelay a.batch.abortedRounds.toNat)
    else a.batch
  let drained := b.members.isEmpty
  let rounds := b.rounds - before
  let m := m.addRounds (UInt64.ofNat rounds)
  let m := if aborted then m.countAborted else m
  let errors := (a.ending.error?.map (errorEntry b.id (toString index))).toList
  let completedAny := match a.ending with
    | .ran completedAny => completedAny
    | .aborted _ => false
    | _ => true
  let report : Report := ⟨index, rounds, completedAny, drained, aborted⟩
  let r := r.replace index b
  if drained then
    match r.remove? index with
    | some (_, r) =>
      let entry := Event.batchDrained.entry
        [("batch", b.id), ("index", toString index), ("rounds", toString b.rounds)]
      ⟨some report, r, a.scans, m.countDrained, a.deliveries, errors ++ [entry], none⟩
    | none => ⟨some report, r, a.scans, m, a.deliveries, errors, none⟩
  else ⟨some report, r, a.scans, m, a.deliveries, errors, none⟩

/-- Advance the batch of an index if it is live, its wait is over, nobody is
advancing it and it may go on behind the one before it. -/
def advanceIndex (sch : Scheduler) (receiver : Receiver) (now index : Nat)
    (r : Registry) (s : Scans) (m : Metrics) : Turn :=
  let idle : Turn := { report := none, registry := r, scans := s, metrics := m }
  match r.get? index with
  | none => idle
  | some b =>
    if !b.retryDue now || b.locked || !sch.isEligible r index b then idle
    else
      let a := sch.guardedAdvance receiver b s
      match a.ending with
      | .crashed crash =>
        { report := none, registry := r.replace index a.batch, scans := a.scans, metrics := m
          deliveries := a.deliveries, crash := some crash }
      | _ => sch.settle now index b.rounds a r m

/-- Try the batches of the given indexes in order until one is advanced. -/
def advanceFirst (sch : Scheduler) (receiver : Receiver) (now : Nat) (r : Registry)
    (s : Scans) (m : Metrics) : List Nat → Turn
  | [] => { report := none, registry := r, scans := s, metrics := m }
  | index :: others =>
    let turn := sch.advanceIndex receiver now index r s m
    if turn.report.isSome || turn.crash.isSome then turn
    else sch.advanceFirst receiver now r s m others

/-- Advance the oldest batch that may. -/
def advanceNext (sch : Scheduler) (receiver : Receiver) (now : Nat) (r : Registry)
    (s : Scans) (m : Metrics) : Turn :=
  sch.advanceFirst receiver now r s m r.window

/-- Whether the batch of an index could be handed to a worker. -/
def isDispatchable (sch : Scheduler) (now : Nat) (r : Registry) (index : Nat) : Bool :=
  (r.get? index).any fun b => !b.locked && b.retryDue now && sch.isEligible r index b

/-- The oldest batch that could be handed to a worker. -/
def nextDispatchable (sch : Scheduler) (now : Nat) (r : Registry) : Option Nat :=
  r.window.find? (sch.isDispatchable now r)

end Scheduler

end Lockstep
