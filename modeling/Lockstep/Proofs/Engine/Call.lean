import Lockstep.Proofs.Engine.Move
import Lockstep.Proofs.Scan.Disturbance
set_option autoImplicit false

/-!
# Runs of calls

An engine is called in any order, one call at a time.  Between calls its clocks
may show another time, and the transaction behind its scans may be disturbed.
-/

namespace Lockstep

/-- What is asked of an engine, or happens to it between two requests. -/
inductive Call where
  /-- accept a query, which the planner turns into a plan -/
  | execute (planner : String → Except Failure Plan) (query : String)
  | formBatch
  | formAllBatches
  /-- step the waiting operation at an index on its own: the first, or
  any that was picked -/
  | propagateAt (index : Nat)
  | advanceNext
  | runUntilDrained
  | takeOutcome (sequence : Nat)
  | takeOutcomes
  | shutdown
  /-- the ledger's clock shows another time -/
  | tick (time : Int)
  /-- some milliseconds pass -/
  | wait (milliseconds : Nat)
  | disturb (disturbance : Disturbance)

/-- What a call gives back. -/
inductive Answer where
  | executed (result : Except EngineError Nat)
  | formed (result : Except Stop (Option Nat))
  | formedAll (result : Except Stop Nat)
  | propagated (result : Except Stop Bool)
  | advanced (result : Except Crash (Option Report))
  | drained (result : Except Stop Unit)
  | taken (outcomes : List Outcome)
  | shutDown (result : Except Crash Unit)
  | nothing

namespace Answer

/-- The sequence number under which a query was accepted. -/
def accepted? : Answer → Option Nat
  | .executed (.ok sequence) => some sequence
  | _ => none

/-- The outcomes that were taken. -/
def outcomes : Answer → List Outcome
  | .taken outcomes => outcomes
  | _ => []

/-- Whether an operation that was stepped on its own has crashed. -/
def isLoss : Answer → Bool
  | .propagated (.error (.crashed _)) => true
  | _ => false

end Answer

namespace Engine

/-- Answer one call. -/
def answer (e : Engine) : Call → Answer × Engine
  | .execute planner query =>
    ((.executed (e.execute planner query).1), (e.execute planner query).2)
  | .formBatch => (.formed e.formBatch.1, e.formBatch.2)
  | .formAllBatches => (.formedAll e.formAllBatches.1, e.formAllBatches.2)
  | .propagateAt index => (.propagated (e.propagateAt index).1, (e.propagateAt index).2)
  | .advanceNext => (.advanced e.advanceNext.1, e.advanceNext.2)
  | .runUntilDrained => (.drained e.runUntilDrained.1, e.runUntilDrained.2)
  | .takeOutcome sequence =>
    (.taken (e.takeOutcome sequence).1.toList, (e.takeOutcome sequence).2)
  | .takeOutcomes => (.taken e.takeOutcomes.1, e.takeOutcomes.2)
  | .shutdown => (.shutDown e.shutdown.1, e.shutdown.2)
  | .tick time => (.nothing, { e with clock := time })
  | .wait milliseconds => (.nothing, { e with now := e.now + milliseconds })
  | .disturb d => (.nothing, { e with scans := e.scans.disturb d })

/-- Answer calls in order. -/
def answerAll (e : Engine) : List Call → List Answer × Engine
  | [] => ([], e)
  | call :: calls =>
    let (answers, last) := answerAll (e.answer call).2 calls
    ((e.answer call).1 :: answers, last)

theorem answerAll_append (e : Engine) (calls more : List Call) :
    e.answerAll (calls ++ more) =
      ((e.answerAll calls).1 ++ ((e.answerAll calls).2.answerAll more).1,
        ((e.answerAll calls).2.answerAll more).2) := by
  induction calls generalizing e with
  | nil => rfl
  | cons call calls ih =>
    have hrest := ih (e.answer call).2
    rw [List.cons_append, answerAll, hrest]
    rfl

theorem receives_takeOutcome (e : Engine) (sequence : Nat) :
    Receives [] e (e.takeOutcome sequence).2 ∧
      ∀ o ∈ (e.takeOutcome sequence).1.toList, o ∈ e.outcomes := by
  unfold takeOutcome Outcomes.take?
  cases hfound : e.outcomes.find? fun o => o.sequence == sequence with
  | none => exact ⟨.refl e, List.forall_mem_nil _⟩
  | some outcome =>
    refine ⟨⟨rfl, rfl, rfl, rfl, rfl, rfl, rfl,
      fun o ho => .inl (List.mem_filter.mp ho).1⟩, ?_⟩
    exact List.forall_mem_singleton.mpr (List.mem_of_find?_eq_some hfound)

theorem receives_takeOutcomes (e : Engine) : Receives [] e e.takeOutcomes.2 :=
  ⟨rfl, rfl, rfl, rfl, rfl, rfl, rfl, fun _ ho => absurd ho List.not_mem_nil⟩

theorem execute_of_error (e : Engine) {planner : String → Except Failure Plan}
    {query : String} {f : Failure} (h : planner query = .error f) :
    e.execute planner query = (.error (.query f), e) := by
  unfold execute
  rw [h]

theorem execute_of_ok (e : Engine) {planner : String → Except Failure Plan}
    {query : String} {plan : Plan} (h : planner query = .ok plan) :
    (e.execute planner query).1 = .ok e.queue.nextSequence ∧
      Receives [] { e with
        queue := (e.queue.enqueue query (plan.openScan e.scans).1).2
        scans := (plan.openScan e.scans).2 } (e.execute planner query).2 := by
  unfold execute
  rw [h]
  exact ⟨rfl, rfl, rfl, rfl, rfl, rfl, rfl, rfl, fun _ ho => .inl ho⟩

/-- What one call does. -/
inductive CallCase (e : Engine) : Call → Answer → Engine → Prop
  /-- a query was accepted, under the next number -/
  | accepted {planner : String → Except Failure Plan} {query : String} {plan : Plan}
      {e' : Engine} (planned : planner query = .ok plan)
      (rest : Receives [] { e with
        queue := (e.queue.enqueue query (plan.openScan e.scans).1).2
        scans := (plan.openScan e.scans).2 } e') :
      CallCase e (.execute planner query) (.executed (.ok e.queue.nextSequence)) e'
  /-- operations that had been accepted have moved on -/
  | moved {call : Call} {answer : Answer} {e' : Engine} (moves : Moves e e')
      (none : answer.accepted? = none)
      (stored : ∀ o ∈ answer.outcomes, o ∈ e.outcomes) : CallCase e call answer e'
  /-- an operation was lost to a crash -/
  | lost {call : Call} {answer : Answer} {e' : Engine} (loss : Loss e e')
      (given : answer.isLoss = true) :
      CallCase e call answer e'
  /-- the ledger's clock was read again -/
  | ticked (time : Int) : CallCase e (.tick time) .nothing { e with clock := time }
  /-- the graph was disturbed -/
  | disturbed (d : Disturbance) :
      CallCase e (.disturb d) .nothing { e with scans := e.scans.disturb d }

/-- Every call is one of these. -/
theorem callCase (e : Engine) (call : Call) :
    e.CallCase call (e.answer call).1 (e.answer call).2 := by
  have hnone : ∀ o ∈ ([] : List Outcome), o ∈ e.outcomes := List.forall_mem_nil _
  cases call with
  | execute planner query =>
    have hanswer : e.answer (.execute planner query) =
        (.executed (e.execute planner query).1, (e.execute planner query).2) := rfl
    rw [hanswer]
    cases hplan : planner query with
    | error f =>
      rw [e.execute_of_error hplan]
      exact .moved .refl rfl hnone
    | ok plan =>
      obtain ⟨hsequence, hrest⟩ := e.execute_of_ok hplan
      rw [hsequence]
      exact .accepted hplan hrest
  | formBatch => exact .moved (.single e.move_formBatch) rfl hnone
  | formAllBatches => exact .moved (e.moves_formBatches _ _) rfl hnone
  | propagateAt index =>
    rcases e.move_propagateAt index with hmove | ⟨hloss, crash, hcrash⟩
    · exact .moved (.single hmove) rfl hnone
    · refine .lost hloss ?_
      unfold answer
      dsimp only
      rw [hcrash]
      rfl
  | advanceNext => exact .moved (.single e.move_advanceNext) rfl hnone
  | runUntilDrained => exact .moved e.moves_runUntilDrained rfl hnone
  | takeOutcome sequence =>
    obtain ⟨hreceives, hstored⟩ := e.receives_takeOutcome sequence
    exact .moved (.single (.idle hreceives)) rfl hstored
  | takeOutcomes =>
    exact .moved (.single (.idle e.receives_takeOutcomes)) rfl fun o ho => ho
  | shutdown => exact .moved e.moves_shutdown rfl hnone
  | tick time => exact .ticked time
  | wait milliseconds => exact .moved (.single (.idle (receives_nil ..))) rfl hnone
  | disturb d => exact .disturbed d

end Engine

end Lockstep
