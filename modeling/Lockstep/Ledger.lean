import Lockstep.Calendar
import Lockstep.Pipeline.Failure
import Std.Data.HashMap
set_option autoImplicit false

/-!
# The ledger of completions

The ledger keeps when operations started and finished, and a log of completions
and one of failures, newest first.  Every completion or failure drops from the
old end of both logs what lies before the retention, and forgets the times of
the dropped operations.

Instants are readings of a clock that need not go forward.
-/

namespace Lockstep

/-- An operation that ended, and when. -/
structure LedgerRecord where
  sequence : Nat
  time : Int
  deriving DecidableEq, Repr, Inhabited

/-- Times of operations by sequence number. -/
abbrev Times := Std.HashMap Nat Int

/-- When operations started and ended. -/
structure Ledger where
  retention : Int
  startTimes : Times := {}
  finishTimes : Times := {}
  /-- completions, newest first -/
  completions : List LedgerRecord := []
  /-- failures, newest first; they get no finish time -/
  failures : List LedgerRecord := []

instance : Inhabited Ledger := ⟨{ retention := 0 }⟩

/-- What the ledger does not know. -/
inductive LedgerMiss where
  | noStartTime (sequence : Nat)
  | noFinishTime (sequence : Nat)
  deriving DecidableEq, Repr, Inhabited

/-- What the ledger does not know, in words. -/
def LedgerMiss.message : LedgerMiss → String
  | .noStartTime sequence => "No start time for operation " ++ toString sequence
  | .noFinishTime sequence => "No finish time for operation " ++ toString sequence

namespace Ledger

/-- The records at the old end of a log that lie before an instant. -/
def expired (cutoff : Int) (records : List LedgerRecord) : List LedgerRecord :=
  records.reverse.takeWhile fun r => r.time < cutoff

/-- A log without the records at its old end that lie before an instant. -/
def unexpired (cutoff : Int) (records : List LedgerRecord) : List LedgerRecord :=
  (records.reverse.dropWhile fun r => r.time < cutoff).reverse

/-- Times without those of the given operations. -/
def forget (times : Times) (records : List LedgerRecord) : Times :=
  records.foldl (fun times r => times.erase r.sequence) times

/-- Drop what ended before an instant. -/
def prune (l : Ledger) (cutoff : Int) : Ledger :=
  let completed := expired cutoff l.completions
  let failed := expired cutoff l.failures
  { l with
    completions := unexpired cutoff l.completions
    failures := unexpired cutoff l.failures
    finishTimes := forget l.finishTimes completed
    startTimes := forget (forget l.startTimes completed) failed }

/-- What noting an end crashes with at an instant: the retention may reach
before the calendar. -/
def obstacle? (l : Ledger) (now : Int) : Option Crash :=
  match Calendar.instant? (now - l.retention) with
  | some _ => none
  | none => some (.text Calendar.differenceCrash)

/-- Drop what lies before the retention at an instant, unless that crashes. -/
def pruneAt (l : Ledger) (now : Int) : Ledger × Option Crash :=
  match l.obstacle? now with
  | none => (l.prune (now - l.retention), none)
  | some crash => (l, some crash)

/-- Note the start of an operation. -/
def recordStart (l : Ledger) (now : Int) (sequence : Nat) : Ledger :=
  { l with startTimes := l.startTimes.insert sequence now }

/-- Note the completion of an operation. -/
def recordCompletion (l : Ledger) (now : Int) (sequence : Nat) :
    Ledger × Option Crash :=
  pruneAt
    { l with
      finishTimes := l.finishTimes.insert sequence now
      completions := ⟨sequence, now⟩ :: l.completions }
    now

/-- Note the failure of an operation. -/
def recordFailure (l : Ledger) (now : Int) (sequence : Nat) : Ledger × Option Crash :=
  pruneAt { l with failures := ⟨sequence, now⟩ :: l.failures } now

/-- How long an operation took. -/
def operationTime (l : Ledger) (sequence : Nat) : Except LedgerMiss Int :=
  match l.startTimes[sequence]? with
  | none => .error (.noStartTime sequence)
  | some started =>
    match l.finishTimes[sequence]? with
    | none => .error (.noFinishTime sequence)
    | some finished => .ok (finished - started)

/-- How many completions the log shows between `now - window` and `now`, read
from the newest on and up to the first that is older.  Crashes if the window
starts before the calendar. -/
def completedWithin (l : Ledger) (window now : Int) : Except Crash Nat :=
  match Calendar.instant? (now - window) with
  | none => .error (.text Calendar.differenceCrash)
  | some oldest =>
    .ok ((l.completions.takeWhile fun r => oldest ≤ r.time).filter fun r =>
      r.time ≤ now).length

/-- How many completions the log holds. -/
def completionCount (l : Ledger) : Nat := l.completions.length

/-- The newest completions, at most so many. -/
def recent (l : Ledger) (limit : Nat) : List LedgerRecord := l.completions.take limit

end Ledger

end Lockstep
