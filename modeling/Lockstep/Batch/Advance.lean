import Lockstep.Batch.Round
set_option autoImplicit false

/-!
# Advancing a batch

An advance runs rounds until a given number is done or the batch is empty.
After each round the members that have found their end leave the batch and are
delivered, in order.

An aborted round ends the advance; one more in a row than the retries allow, or
a broken round, fails the batch: every member is delivered, those at their end
as completed and the others as failed.  The aborted rounds in a row are counted
in 32 bits, and the advance crashes on one more than that holds.

The receiver of deliveries may crash on taking one.  The advance then crashes
too: the delivery counts as made, and members that were to follow it are lost.
-/

namespace Lockstep

/-- How an advance ended. -/
inductive AdvanceEnd where
  /-- all rounds were run, or the batch is empty: whether any operation
  completed in them -/
  | ran (completedAny : Bool)
  /-- a round was aborted and may be tried again -/
  | aborted (reason : Failure)
  /-- the batch failed: how many members it had, and why -/
  | failed (members : Nat) (reason : Failure)
  | crashed (crash : Crash)
  deriving DecidableEq, Repr, Inhabited

/-- What an advance left. -/
structure Advance where
  ending : AdvanceEnd
  batch : Batch
  scans : Scans
  deliveries : List Delivery
  deriving Repr, Inhabited

/-- How an advance ends that goes on behind rounds in which operations
completed, or none did. -/
def AdvanceEnd.after (completedAny : Bool) : AdvanceEnd → AdvanceEnd
  | .ran more => .ran (completedAny || more)
  | ending => ending

/-- An advance that goes on behind rounds that have handed these deliveries over. -/
def Advance.after (completedAny : Bool) (earlier : List Delivery) (a : Advance) :
    Advance :=
  { a with ending := a.ending.after completedAny, deliveries := earlier ++ a.deliveries }

/-- Whoever takes deliveries: none if it takes them all, or what it crashes
with on the first. -/
abbrev Receiver := Option Crash

namespace Batch

/-- Deliver operations that completed. -/
def completions (operations : List Operation) : List Delivery :=
  operations.map fun op => ⟨op, .completed⟩

/-- Deliver every member when the batch failed. -/
def failures (reason : Failure) (members : List Operation) : List Delivery :=
  members.map fun op =>
    ⟨op, if op.isFinished then .completed else .failed reason.display⟩

/-- The deliveries that a receiver takes before it crashes, and its crash
if there is one. -/
def deliver (receiver : Receiver) (deliveries : List Delivery) :
    List Delivery × Option Crash :=
  match receiver, deliveries with
  | some crash, first :: _ => ([first], some crash)
  | _, _ => (deliveries, none)

/-- Fail the batch: it is empty afterwards. -/
def failAll (receiver : Receiver) (b : Batch) (reason : Failure) (s : Scans) :
    Advance :=
  let empty := { b with members := [] }
  match deliver receiver (failures reason b.members) with
  | (taken, some crash) => ⟨.crashed crash, empty, s, taken⟩
  | (taken, none) => ⟨.failed b.members.length reason, empty, s, taken⟩

/-- The largest count of aborted rounds in a row. -/
def maxAborted : UInt32 := 0xFFFFFFFF

/-- What counting an aborted round behind the largest count crashes with. -/
def overflowCrash : Crash := .text "attempt to add with overflow"

/-- Run up to so many rounds. -/
def advance (receiver : Receiver) (maxRetries : UInt32) : Nat → Batch → Scans → Advance
  | 0, b, s => ⟨.ran false, b, s, []⟩
  | rounds + 1, b, s =>
    if b.members.isEmpty then ⟨.ran false, b, s, []⟩
    else
      match round b.members s with
      | (.completed, members, s) =>
        let done := members.filter Operation.isFinished
        let left := { b with members := members.filter fun op => !op.isFinished }
        match deliver receiver (completions done) with
        | (taken, some crash) => ⟨.crashed crash, left, s, taken⟩
        | (taken, none) =>
          (advance receiver maxRetries rounds
            { left with abortedRounds := 0, rounds := b.rounds + 1 } s).after
              (!done.isEmpty) taken
      | (.aborted reason, members, s) =>
        if b.abortedRounds = maxAborted then
          ⟨.crashed overflowCrash, { b with members := members }, s, []⟩
        else
          let b := { b with members := members, abortedRounds := b.abortedRounds + 1 }
          if b.abortedRounds > maxRetries then failAll receiver b reason s
          else ⟨.aborted reason, b, s, []⟩
      | (.broken reason, members, s) =>
        failAll receiver { b with members := members } reason s
      | (.crashed crash, members, s) =>
        ⟨.crashed crash, { b with members := members }, s, []⟩

end Batch

end Lockstep
