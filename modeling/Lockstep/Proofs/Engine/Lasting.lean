import Lockstep.Proofs.Engine.Call
set_option autoImplicit false

/-!
# What lasts while an engine is driven

Forming, stepping and advancing touch the store of outcomes and the record of
deliveries only by completing operations, and the workers not at all.  So a
property of these lasts through every drive if it lasts through every completion.
-/

namespace Lockstep.Engine

/-- Whether two engines differ at most in their operations, the graph, what they
log and what the ledger knows. -/
structure Alike (e e' : Engine) : Prop where
  config : e'.config = e.config
  clock : e'.clock = e.clock
  retention : e'.ledger.retention = e.ledger.retention
  outcomes : e'.outcomes = e.outcomes
  delivered : e'.delivered = e.delivered
  pool : e'.pool = e.pool
  numWorkers : e'.numWorkers = e.numWorkers
  propagating : e'.propagating = e.propagating

/-- A property that lasts through completions, and whatever else sets
alike engines apart. -/
structure Lasting (P : Engine → Prop) : Prop where
  complete : ∀ e d, P e → P (e.complete d).1
  alike : ∀ e e', Alike e e' → P e → P e'

namespace Lasting

variable {P : Engine → Prop} (hP : Lasting P) {e : Engine}

include hP

theorem completeAll (deliveries : List Delivery) (h : P e) :
    P (e.completeAll deliveries).1 := by
  induction deliveries generalizing e with
  | nil => exact h
  | cons d others ih =>
    have hfirst := hP.complete e d h
    unfold Engine.completeAll
    generalize e.complete d = completed at hfirst
    obtain ⟨e', crash⟩ := completed
    cases crash with
    | some crash => exact hfirst
    | none => exact ih hfirst

theorem receiveAll (deliveries : List Delivery) (h : P e) :
    P (e.receiveAll deliveries) := by
  induction deliveries generalizing e with
  | nil => exact h
  | cons d others ih => exact ih (hP.complete e d h)

theorem formBatch (h : P e) : P e.formBatch.2 := by
  unfold Engine.formBatch
  split
  · exact hP.alike e _ ⟨rfl, rfl, rfl, rfl, rfl, rfl, rfl, rfl⟩ h
  · generalize e.queue.drainBatch e.config.batchSize = drained
    obtain ⟨operations, queue⟩ := drained
    dsimp only
    split
    · exact h
    · split
      · unfold register
        dsimp only
        split <;> exact hP.alike e _ ⟨rfl, rfl, rfl, rfl, rfl, rfl, rfl, rfl⟩ h
      · rename_i f operations' _
        have hrejected :
            P ({ e with queue := queue }.reject operations'.length f.message) :=
          hP.alike e _ ⟨rfl, rfl, rfl, rfl, rfl, rfl, rfl, rfl⟩ h
        have hall :=
          hP.completeAll (operations'.map fun op => ⟨op, .failed f.display⟩) hrejected
        generalize Engine.completeAll _ _ = completed at hall
        obtain ⟨e', crash⟩ := completed
        cases crash <;> exact hall

theorem formBatches (fuel formed : Nat) (h : P e) :
    P (e.formBatches fuel formed).2 := by
  induction fuel generalizing e formed with
  | zero => exact h
  | succ fuel ih =>
    have hform := hP.formBatch h
    unfold Engine.formBatches
    generalize e.formBatch = result at hform
    obtain ⟨result, e'⟩ := result
    cases result with
    | error stop => exact hform
    | ok index =>
      cases index with
      | none => exact hform
      | some index => exact ih _ hform

theorem propagateAt (index : Nat) (h : P e) : P (e.propagateAt index).2 := by
  unfold Engine.propagateAt
  split
  · exact h
  · rename_i queue _
    generalize Operation.step _ _ _ = stepped
    obtain ⟨result, op, s⟩ := stepped
    have hstepped : P { e with queue := queue, scans := s } :=
      hP.alike e _ ⟨rfl, rfl, rfl, rfl, rfl, rfl, rfl, rfl⟩ h
    have hback : P { e with queue := queue.reinsert index op, scans := s } :=
      hP.alike e _ ⟨rfl, rfl, rfl, rfl, rfl, rfl, rfl, rfl⟩ h
    have hdelivered := fun status => hP.complete _ ⟨op, status⟩ hstepped
    cases result with
    | ok result =>
      cases result with
      | finished =>
        have hcompleted := hdelivered .completed
        dsimp only
        generalize Engine.complete _ _ = completed at hcompleted
        obtain ⟨e', crash⟩ := completed
        cases crash <;> exact hcompleted
      | produced | pending => exact hback
    | error i =>
      cases i with
      | crashed crash => exact hstepped
      | failed f =>
        have hfailed := hdelivered (.failed f.display)
        dsimp only
        split
        · exact hback
        · generalize Engine.complete _ _ = completed at hfailed
          obtain ⟨e', crash⟩ := completed
          cases crash <;> exact hfailed

theorem settle (turn : Turn) (h : P e) : P (e.settle turn) := by
  have hreceived := hP.receiveAll turn.deliveries (hP.alike e
    { e with registry := turn.registry, scans := turn.scans, metrics := turn.metrics }
    ⟨rfl, rfl, rfl, rfl, rfl, rfl, rfl, rfl⟩ h)
  refine hP.alike _ _ ?_ hreceived
  exact ⟨rfl, rfl, rfl, rfl, rfl, rfl, rfl, rfl⟩

theorem advanceNext (h : P e) : P e.advanceNext.2 := by
  unfold Engine.advanceNext
  dsimp only
  split <;> exact hP.settle _ h

theorem advanceIndex (index : Nat) (h : P e) : P (e.advanceIndex index).2 := by
  unfold Engine.advanceIndex
  dsimp only
  split <;> exact hP.settle _ h

theorem awaitRetry (h : P e) : P e.awaitRetry := by
  unfold Engine.awaitRetry
  split
  · exact hP.alike e _ ⟨rfl, rfl, rfl, rfl, rfl, rfl, rfl, rfl⟩ h
  · exact h

theorem formQuietly (h : P e) : P e.formQuietly.2 := by
  have hform := hP.formBatch h
  unfold Engine.formQuietly
  split <;> (rename_i hresult; rw [hresult] at hform; exact hform)

theorem advanceTurn (h : P e) : P e.advanceTurn.2 := by
  have hform := hP.formQuietly h
  unfold Engine.advanceTurn
  generalize e.formQuietly = formed at hform
  obtain ⟨crash, e'⟩ := formed
  cases crash with
  | some crash => exact hform
  | none =>
    have hadvance := hP.advanceNext hform
    dsimp only
    generalize e'.advanceNext = result at hadvance
    obtain ⟨result, e''⟩ := result
    cases result with
    | error crash => exact hadvance
    | ok report =>
      cases report with
      | some report => exact hadvance
      | none => exact hP.awaitRetry hadvance

theorem propagateTurn (h : P e) : P e.propagateTurn.2 := by
  have hform := hP.formQuietly h
  unfold Engine.propagateTurn
  generalize e.formQuietly = formed at hform
  obtain ⟨crash, e'⟩ := formed
  cases crash with
  | some crash => exact hform
  | none =>
    have hadvance := hP.advanceNext hform
    dsimp only
    generalize e'.advanceNext = result at hadvance
    obtain ⟨result, e''⟩ := result
    cases result with
    | error crash =>
      exact hP.alike e'' _ ⟨rfl, rfl, rfl, rfl, rfl, rfl, rfl, rfl⟩ hadvance
    | ok report =>
      cases report with
      | some report => exact hadvance
      | none => exact hP.awaitRetry hadvance

omit hP in
theorem drainBy {turn : Engine → Except Stop Unit × Engine}
    (hturn : ∀ {e}, P e → P (turn e).2) (fuel : Nat) (h : P e) :
    P (drainBy turn fuel e).2 := by
  induction fuel generalizing e with
  | zero => exact h
  | succ fuel ih =>
    have hnext := hturn h
    rw [drainBy_succ]
    split
    · exact h
    · generalize turn e = result at hnext
      obtain ⟨result, e'⟩ := result
      cases result with
      | ok _ => exact ih hnext
      | error stop => exact hnext

theorem runUntilDrained (h : P e) : P e.runUntilDrained.2 := by
  unfold Engine.runUntilDrained
  split
  · exact h
  · exact drainBy hP.advanceTurn _ h

theorem execute (planner : String → Except Failure Plan) (query : String) (h : P e) :
    P (e.execute planner query).2 := by
  unfold Engine.execute
  split
  · exact h
  · exact hP.alike e _ ⟨rfl, rfl, rfl, rfl, rfl, rfl, rfl, rfl⟩ h

theorem abandonBatches (batches : List Batch) (count : Nat) (h : P e) :
    P (e.abandonBatches batches count).2 := by
  induction batches generalizing e count with
  | nil => exact h
  | cons b others ih =>
    unfold Engine.abandonBatches
    split
    · exact ih _ h
    · have hreceived :=
        hP.receiveAll (b.failAll e.receiver abandonFailure e.scans).deliveries h
      dsimp only
      split
      · exact hreceived
      · exact ih _ hreceived
      · exact ih _ hreceived

theorem abandonRemaining (h : P e) : P e.abandonRemaining.2 := by
  have hqueue := hP.completeAll
    (e.queue.operations.map fun op => ⟨op, .failed abandonFailure.display⟩)
    (hP.alike e { e with queue := e.queue.drainAll.2 }
      ⟨rfl, rfl, rfl, rfl, rfl, rfl, rfl, rfl⟩ h)
  have hdrain : e.queue.drainAll = (e.queue.operations, e.queue.drainAll.2) := rfl
  unfold Engine.abandonRemaining
  rw [hdrain]
  dsimp only at hqueue ⊢
  generalize Engine.completeAll _ _ = completed at hqueue
  obtain ⟨e', crash⟩ := completed
  cases crash with
  | some crash => exact hqueue
  | none =>
    have hbatches := hP.abandonBatches e'.registry.drain.1 e.queue.operations.length
      (hP.alike e' { e' with registry := e'.registry.drain.2 }
        ⟨rfl, rfl, rfl, rfl, rfl, rfl, rfl, rfl⟩ hqueue)
    dsimp only at hbatches ⊢
    generalize Engine.abandonBatches _ _ _ = abandoned at hbatches
    obtain ⟨result, e''⟩ := abandoned
    cases result with
    | error crash => exact hbatches
    | ok count =>
      dsimp only
      split
      · exact hP.alike e'' _ ⟨rfl, rfl, rfl, rfl, rfl, rfl, rfl, rfl⟩ hbatches
      · exact hbatches

end Lasting

theorem lasting_retention (retention : Int) :
    Lasting fun e => e.ledger.retention = retention where
  complete := fun e d h => (e.receives_complete d).1.retention.trans h
  alike := fun _ _ halike h => halike.retention.trans h

theorem complete_workers (e : Engine) (d : Delivery) :
    (e.complete d).1.pool = e.pool ∧ (e.complete d).1.numWorkers = e.numWorkers ∧
      (e.complete d).1.propagating = e.propagating := by
  unfold complete
  dsimp only
  split
  · unfold completeOk
    split <;> exact ⟨rfl, rfl, rfl⟩
  · unfold completeFailed
    split <;> exact ⟨rfl, rfl, rfl⟩

theorem lasting_workers (pool : Option WorkerPool) (numWorkers : Nat)
    (propagating : Bool) :
    Lasting fun e => e.pool = pool ∧ e.numWorkers = numWorkers ∧
      e.propagating = propagating where
  complete := by
    rintro e d ⟨rfl, rfl, rfl⟩
    exact e.complete_workers d
  alike := by
    rintro e e' halike ⟨rfl, rfl, rfl⟩
    exact ⟨halike.pool, halike.numWorkers, halike.propagating⟩

/-- No call but a shutdown touches the workers. -/
theorem pool_answer (e : Engine) {call : Call} (h : call ≠ .shutdown) :
    (e.answer call).2.pool = e.pool := by
  have hlasts := lasting_workers e.pool e.numWorkers e.propagating
  have hown : e.pool = e.pool ∧ e.numWorkers = e.numWorkers ∧
      e.propagating = e.propagating :=
    ⟨rfl, rfl, rfl⟩
  cases call with
  | execute planner query => exact (hlasts.execute planner query hown).1
  | formBatch => exact (hlasts.formBatch hown).1
  | formAllBatches => exact (hlasts.formBatches _ _ hown).1
  | propagateAt index => exact (hlasts.propagateAt index hown).1
  | advanceNext => exact (hlasts.advanceNext hown).1
  | runUntilDrained => exact (hlasts.runUntilDrained hown).1
  | takeOutcome sequence =>
    unfold answer takeOutcome
    dsimp only
    split <;> rfl
  | takeOutcomes | tick _ | wait _ | disturb _ => rfl
  | shutdown => exact absurd rfl h

end Lockstep.Engine
