import Lockstep.Proofs.Registry.Lookup
import Lockstep.Proofs.Scheduler.Single
import Mathlib.Logic.Function.Basic
set_option autoImplicit false

/-!
# Workers at one registry

Any number of workers advance the batches of one registry while new batches come
in.  What a worker does with an index falls into parts, and the others go on
between them: it looks the batch up, takes its lock, checks the gate, runs one
round after the other, releases the lock, and removes the batch if it was left
without members.

What the workers are told does not matter here.  `Crew` has the same parts with
what a call is told, and does what `advanceIndex` does; whatever its calls do is
done by workers, too.
-/

namespace Lockstep

/-- How far a worker has got with an index. -/
inductive Stage where
  | idle
  /-- it has seen a live batch whose wait is over -/
  | found (index : Nat)
  /-- it holds the lock -/
  | holding (index : Nat)
  /-- it has passed the gate and may run so many rounds more -/
  | running (index left : Nat)
  /-- it has released the lock of a batch that was left empty -/
  | leaving (index : Nat)
  deriving DecidableEq, Repr, Inhabited

/-- The index whose lock a worker holds. -/
def Stage.held? : Stage → Option Nat
  | .holding index => some index
  | .running index _ => some index
  | _ => none

/-- How many rounds a worker may still run. -/
def Stage.left : Stage → Nat
  | .running _ left => left
  | _ => 0

/-- A registry, the scans behind its batches, and the workers by number. -/
structure Fleet where
  registry : Registry
  scans : Scans
  stage : Nat → Stage := fun _ => .idle

/-- A part of what is done to a registry. -/
inductive FleetCall where
  /-- form a batch of operations and insert it -/
  | insert (id : String) (operations : List Operation)
  /-- open scans, change the graph, or anything else that moves scans -/
  | move (scans : Scans)
  | look (worker now index : Nat)
  | lock (worker : Nat)
  | gate (worker : Nat)
  | round (worker : Nat) (receiver : Receiver) (now : Nat)
  | release (worker : Nat)
  | remove (worker : Nat)

namespace Fleet

/-- Workers at an empty registry. -/
def ofCapacity (capacity : Nat) (scans : Scans) : Fleet :=
  { registry := .ofCapacity capacity, scans := scans }

/-- Bring a worker to a stage. -/
def setStage (f : Fleet) (worker : Nat) (stage : Stage) : Fleet :=
  { f with stage := Function.update f.stage worker stage }

/-- Put a batch back in its place. -/
def replace (f : Fleet) (index : Nat) (b : Batch) : Fleet :=
  { f with registry := f.registry.replace index b }

/-- Release a lock. -/
def unlock (f : Fleet) (index : Nat) : Fleet :=
  { f with registry := f.registry.setLocked index false }

/-- Form a batch and insert it, if the operations can be grouped and there is room. -/
def insert (f : Fleet) (id : String) (operations : List Operation) : Fleet :=
  match Batch.form id operations f.scans with
  | .error _ => f
  | .ok b =>
    match f.registry.insert? b with
    | none => f
    | some (_, registry) => { f with registry := registry }

/-- Look the batch of an index up. -/
def look (f : Fleet) (worker now index : Nat) : Fleet :=
  match f.stage worker with
  | .idle =>
    if (f.registry.get? index).any (·.retryDue now) then
      f.setStage worker (.found index) else f
  | _ => f

/-- Take the lock of the batch that was found, unless someone else holds it. -/
def lock (f : Fleet) (worker : Nat) : Fleet :=
  match f.stage worker with
  | .found index =>
    match f.registry.get? index with
    | none => f.setStage worker .idle
    | some b =>
      if b.locked then f.setStage worker .idle
      else (f.replace index { b with locked := true }).setStage worker (.holding index)
  | _ => f

/-- Go on to the rounds if the gate is open, or else give the lock back. -/
def gate (sch : Scheduler) (f : Fleet) (worker : Nat) : Fleet :=
  match f.stage worker with
  | .holding index =>
    match f.registry.get? index with
    | none => f.setStage worker .idle
    | some b =>
      if sch.isEligible f.registry index b then
        f.setStage worker (.running index sch.stride)
      else (f.unlock index).setStage worker .idle
  | _ => f

/-- What an advance leaves of its batch, held back for a while if a
round was aborted. -/
def waiting (sch : Scheduler) (now : Nat) (a : Advance) : Batch :=
  match a.ending with
  | .aborted _ => a.batch.deferRetry (now + sch.retryDelay a.batch.abortedRounds.toNat)
  | _ => a.batch

/-- What a round leaves of the batch, and how far the worker is behind it.  A
round that did not run is the last one; a crash that nothing caught gives the
lock back and goes no further. -/
def afterRound (sch : Scheduler) (now index left : Nat) (a : Advance) : Batch × Stage :=
  match a.ending with
  | .ran _ => (waiting sch now a, .running index left)
  | .aborted _ | .failed _ _ => (waiting sch now a, .running index 0)
  | .crashed _ => ({ waiting sch now a with locked := false }, .idle)

/-- Take what a round has left. -/
def take (sch : Scheduler) (f : Fleet) (worker now index left : Nat) (a : Advance) :
    Fleet :=
  let (b, stage) := afterRound sch now index left a
  { f.replace index b with scans := a.scans }.setStage worker stage

/-- Run one of the rounds that are left. -/
def round (sch : Scheduler) (f : Fleet) (worker : Nat) (receiver : Receiver)
    (now : Nat) : Fleet :=
  match f.stage worker with
  | .running index (left + 1) =>
    match f.registry.get? index with
    | none => f.setStage worker (.running index 0)
    | some b =>
      take sch f worker now index left
        ((sch.withStride 1).guardedAdvance receiver b f.scans)
  | _ => f

/-- Release the lock when no rounds are left.  A batch that is no longer
live was left empty. -/
def release (f : Fleet) (worker : Nat) : Fleet :=
  match f.stage worker with
  | .running index 0 =>
    let drained := (f.registry.get? index).all (·.members.isEmpty)
    (f.unlock index).setStage worker (if drained then .leaving index else .idle)
  | _ => f

/-- Remove the batch that was left empty, unless someone else has done so. -/
def remove (f : Fleet) (worker : Nat) : Fleet :=
  match f.stage worker with
  | .leaving index =>
    match f.registry.remove? index with
    | none => f.setStage worker .idle
    | some (_, registry) => { f with registry := registry }.setStage worker .idle
  | _ => f

/-- Do one part.  A part that is not the worker's next changes nothing. -/
def answer (sch : Scheduler) (f : Fleet) : FleetCall → Fleet
  | .insert id operations => f.insert id operations
  | .move scans => { f with scans := scans }
  | .look worker now index => f.look worker now index
  | .lock worker => f.lock worker
  | .gate worker => gate sch f worker
  | .round worker receiver now => round sch f worker receiver now
  | .release worker => f.release worker
  | .remove worker => f.remove worker

/-- Do parts in order. -/
def answerAll (sch : Scheduler) (f : Fleet) (calls : List FleetCall) : Fleet :=
  calls.foldl (answer sch) f

theorem answerAll_append (sch : Scheduler) (f : Fleet) (calls calls' : List FleetCall) :
    f.answerAll sch (calls ++ calls') = (f.answerAll sch calls).answerAll sch calls' :=
  List.foldl_append

/-- The parts of an attempt to advance the batch of an index, behind the look at it. -/
def attempt (stride worker : Nat) (receiver : Receiver) (now : Nat) : List FleetCall :=
  .lock worker :: .gate worker :: (List.replicate stride (.round worker receiver now) ++
    [.release worker, .remove worker])

/-! ## Stages -/

section

variable {f : Fleet} {worker : Nat} {stage : Stage}

theorem stage_setStage_self (f : Fleet) (worker : Nat) (stage : Stage) :
    (f.setStage worker stage).stage worker = stage := Function.update_self ..

theorem stage_setStage_of_ne {other : Nat} (h : other ≠ worker) (f : Fleet)
    (stage : Stage) :
    (f.setStage worker stage).stage other = f.stage other := Function.update_of_ne h ..

theorem held_setStage {other index : Nat}
    (h : ((f.setStage worker stage).stage other).held? = some index) :
    other = worker ∧ stage.held? = some index ∨
      other ≠ worker ∧ (f.stage other).held? = some index := by
  by_cases hsame : other = worker
  · subst hsame
    rw [stage_setStage_self] at h
    exact .inl ⟨rfl, h⟩
  · rw [stage_setStage_of_ne hsame] at h
    exact .inr ⟨hsame, h⟩

end

/-- What a round leaves counts as many rounds as the advance, and a worker that
still holds the lock has left it marked, with no more rounds to run than it had. -/
theorem afterRound_spec (sch : Scheduler) (now index left : Nat) (a : Advance) :
    (afterRound sch now index left a).1.rounds = a.batch.rounds ∧
      (∀ i, (afterRound sch now index left a).2.held? = some i →
        i = index ∧ (afterRound sch now index left a).1.locked = a.batch.locked) ∧
      (afterRound sch now index left a).2.left ≤ left := by
  unfold afterRound waiting
  cases a.ending with
  | ran => exact ⟨rfl, fun i held => ⟨(Option.some.inj held).symm, rfl⟩, Nat.le_refl _⟩
  | aborted f | failed members f =>
    exact ⟨rfl, fun i held => ⟨(Option.some.inj held).symm, rfl⟩, Nat.zero_le _⟩
  | crashed crash => exact ⟨rfl, fun i held => (by cases held), Nat.zero_le _⟩

end Fleet

end Lockstep
