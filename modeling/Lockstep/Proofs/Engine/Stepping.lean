import Lockstep.Proofs.Engine.Call
import Mathlib.Data.List.InsertIdx
set_option autoImplicit false

/-!
# Where a step on its own leaves an operation

An operation that is stepped on its own is out of the queue meanwhile.
Afterwards it stands where it stood, among the others as they were, or it has
been handed over once.  Only a crash of the step leaves it nowhere.
-/

namespace Lockstep

theorem Operation.same_step (op : Operation) (cached : Bool) (s : Scans) :
    (op.step cached s).2.1.sequence = op.sequence ∧ (op.step cached s).2.1.query = op.query :=
  ⟨rfl, rfl⟩

theorem Queue.operations_reinsert {q rest : Queue} {index : Nat} {op : Operation}
    (h : q.takeAt? index = some (op, rest)) (op' : Operation) :
    (rest.reinsert index op').operations = q.operations.set index op' := by
  obtain ⟨hfound, rfl⟩ := takeAt?_eq_some_iff.mp h
  obtain ⟨hindex, -⟩ := List.getElem?_eq_some_iff.mp hfound
  have hbound : index ≤ (q.operations.eraseIdx index).length := by
    rw [List.length_eraseIdx_of_lt hindex]
    omega
  unfold reinsert
  dsimp only
  rw [Nat.min_eq_left hbound]
  exact List.insertIdx_eraseIdx_self (Nat.ne_of_lt hindex) op'

namespace Engine

variable {e e' : Engine} {index : Nat}

/-- The operation at an index stands there again, as it is after a step, and
nothing else has moved. -/
structure StandsAgain (index : Nat) (op : Operation) (e e' : Engine) : Prop where
  queue : e'.queue.operations = e.queue.operations.set index op
  delivered : e'.delivered = e.delivered

/-- The operation at an index has left the others as they were and was
handed over once. -/
structure HandedOver (index : Nat) (d : Delivery) (e e' : Engine) : Prop where
  queue : e'.queue.operations = e.queue.operations.eraseIdx index
  delivered : e'.delivered = d :: e.delivered

/-- The operation at an index has left the others as they were and was
not handed over. -/
structure Vanished (index : Nat) (e e' : Engine) : Prop where
  queue : e'.queue.operations = e.queue.operations.eraseIdx index
  delivered : e'.delivered = e.delivered

theorem handedOver_of_receives {op : Operation} {queue : Queue} {s : Scans}
    {d : Delivery} (took : e.queue.takeAt? index = some (op, queue))
    (rest : Receives [d] { e with queue := queue, scans := s } e') :
    HandedOver index d e e' := by
  obtain ⟨-, rfl⟩ := Queue.takeAt?_eq_some_iff.mp took
  exact ⟨congrArg Queue.operations rest.queue, rest.delivered⟩

/-- Whatever waits, whichever operation is stepped on its own and however its
scan and its chain behave: if the step does not crash, then the operation stands
at its index again with all others unmoved, or it was handed over once, as
completed exactly if the step found its end.  If the step crashes, then the
crash goes on, and the operation is neither in the queue any more nor handed
over.  The batches are as before. -/
theorem propagateAt_settles_unless_crashed {op op' : Operation} {scans : Scans}
    {result : Except Interruption StepResult}
    (waiting : e.queue.operations[index]? = some op)
    (step : op.step false e.scans = (result, op', scans)) :
    let after := (e.propagateAt index).2
    op'.sequence = op.sequence ∧ op'.query = op.query ∧ after.registry = e.registry ∧
      ((∀ crash, result ≠ .error (.crashed crash)) → StandsAgain index op' e after ∨
        ∃ status, HandedOver index ⟨op', status⟩ e after ∧
          (status = .completed ↔ result = .ok .finished)) ∧
      ∀ crash, result = .error (.crashed crash) →
        (e.propagateAt index).1 = .error (.crashed crash) ∧ Vanished index e after := by
  have hsame := op.same_step false e.scans
  have htook := Queue.takeAt?_eq_some_iff.mpr ⟨waiting, rfl⟩
  have hstepping := stepping_propagateAt htook step
  rw [step] at hsame
  generalize (e.propagateAt index).1 = answer at hstepping
  generalize (e.propagateAt index).2 = after at hstepping
  refine ⟨hsame.1, hsame.2, ?_⟩
  cases hstepping with
  | waits going unfinished =>
    exact ⟨rfl, fun _ => .inl ⟨Queue.operations_reinsert htook op', rfl⟩,
      fun crash crashed => absurd crashed (going crash)⟩
  | completed rest =>
    exact ⟨rest.registry,
      fun _ => .inr ⟨_, handedOver_of_receives htook rest, iff_of_true rfl rfl⟩, nofun⟩
  | failed rest =>
    exact ⟨rest.registry,
      fun _ => .inr ⟨_, handedOver_of_receives htook rest, iff_of_false nofun nofun⟩, nofun⟩
  | lost crash =>
    refine ⟨rfl, fun steady => absurd rfl (steady crash), ?_⟩
    rintro _ ⟨⟩
    exact ⟨rfl, rfl, rfl⟩

/-- An engine in which operations wait, each on a scan that has one thing to give. -/
def waitingOn (entries : List ScriptEntry) : Engine :=
  let accept (e : Engine) (entry : ScriptEntry) : Engine :=
    (e.execute (fun _ => .ok ⟨.allNodes, .script [entry], []⟩) "rows").2
  entries.foldl accept (fresh { registryCapacity := 1 } default default)

/-- Three operations of which the second one cannot be read for once. -/
def closedSecond : Engine :=
  waitingOn [.row (.nat 1), .interruption (.failed ⟨.transactionUnavailable, "closed"⟩),
    .row (.nat 3)]

/-- If the second of the three is stepped on its own, then it stands at
its index again. -/
theorem propagateAt_settles_unless_crashed_second :
    ∃ op op' scans, closedSecond.queue.operations[1]? = some op ∧
      op.step false closedSecond.scans =
        (.error (.failed ⟨.transactionUnavailable, "closed"⟩), op', scans) ∧
      StandsAgain 1 op' closedSecond (closedSecond.propagateAt 1).2 := by
  have hfails : closedSecond.queue.operations[1]?.map
    (fun op => (op.step false closedSecond.scans).1) =
      some (.error (.failed ⟨.transactionUnavailable, "closed"⟩)) := by decide +kernel
  have hnothing : (closedSecond.propagateAt 1).2.delivered.length = 0 := by
    decide +kernel
  obtain ⟨op, hwaiting, hfailed⟩ := Option.map_eq_some_iff.mp hfails
  generalize hstep : op.step false closedSecond.scans = stepped at hfailed
  obtain ⟨result, op', scans⟩ := stepped
  obtain rfl : result = _ := hfailed
  refine ⟨op, op', scans, hwaiting, hstep, ?_⟩
  obtain ⟨-, -, -, hsettled, -⟩ := propagateAt_settles_unless_crashed hwaiting hstep
  rcases hsettled nofun with hstands | ⟨status, hover, -⟩
  · exact hstands
  · rw [hover.delivered] at hnothing
    cases hnothing

/-- An operation whose step crashes waits no longer, although it was not handed over. -/
theorem crashed_step_loses :
    let e := waitingOn [.interruption (.crashed (.text "boom"))]
    let (answer, after) := e.propagateFirst
    e.queue.operations.map Operation.sequence = [0] ∧
      answer = .error (.crashed (.text "boom")) ∧
      after.queue.operations.length = 0 ∧ after.delivered.length = 0 := by
  decide +kernel

end Engine

end Lockstep
