import Lockstep.Proofs.Engine.Books
set_option autoImplicit false

/-!
# Counters balance

The books stay in order through everything that is asked of an engine.  So at
any time the queries that were deferred are those completed, those failed and
those that remain; the outcomes that were dropped, are stored or were taken are
as many as the queries that ended; the batches that were formed are those
drained and those that live, until a shutdown; and the aborted rounds are those
that reports told of.
-/

namespace Lockstep.Engine

variable {reports : List Report} {taken : Nat} {closed : Bool} {e e' : Engine}

namespace Books

/-! ## Forming and stepping -/

theorem formBatch (h : e.Books reports taken closed) :
    e.formBatch.2.Books reports taken closed := by
  unfold Engine.formBatch
  split
  · exact h.unchanged rfl
  · rename_i hroom
    have hsplit := congrArg List.length (e.queue.drainBatch_append e.config.batchSize)
    have hnext : (e.queue.drainBatch e.config.batchSize).2.nextSequence =
      e.queue.nextSequence := rfl
    rw [List.length_append] at hsplit
    generalize e.queue.drainBatch e.config.batchSize = drained at hsplit hnext
    obtain ⟨operations, queue⟩ := drained
    dsimp only at hsplit hnext ⊢
    have hleft : queue.size ≤ e.queue.size := by
      unfold Queue.size
      omega
    split
    · exact h
    · rename_i hsome
      split
      · rename_i b _
        unfold Engine.register
        dsimp only
        split
        · rename_i index r hinsert
          have hless : queue.size < e.queue.size := by
            have hpos : 0 < operations.length :=
              List.length_pos_of_ne_nil fun hempty =>
                hsome (List.isEmpty_iff.mpr hempty)
            unfold Queue.size
            omega
          exact (h.register hinsert hnext hless).unchanged rfl
        · rename_i hfull
          exact absurd (Registry.insert?_eq_none_iff.mp hfull) hroom
      · rename_i f operations' _
        have hrejected :
            ({ e with queue := queue }.reject operations'.length f.message).Books
                reports taken closed :=
          h.aside ⟨rfl, rfl, rfl, rfl, hnext, hleft, rfl⟩
        have hall :=
          hrejected.completeAll (operations'.map fun op => ⟨op, .failed f.display⟩)
        generalize Engine.completeAll _ _ = completed at hall
        obtain ⟨e', crash⟩ := completed
        cases crash <;> exact hall

theorem formBatches (h : e.Books reports taken closed) (fuel formed : Nat) :
    (e.formBatches fuel formed).2.Books reports taken closed := by
  induction fuel generalizing e formed with
  | zero => exact h
  | succ fuel ih =>
    have hform := h.formBatch
    unfold Engine.formBatches
    generalize e.formBatch = result at hform
    obtain ⟨result, e'⟩ := result
    cases result with
    | error stop => exact hform
    | ok index =>
      cases index with
      | none => exact hform
      | some index => exact ih hform _

theorem formQuietly (h : e.Books reports taken closed) :
    e.formQuietly.2.Books reports taken closed := by
  have hform := h.formBatch
  unfold Engine.formQuietly
  split <;> (rename_i hresult; rw [hresult] at hform; exact hform)

/-- An operation that is stepped on its own goes back to the queue or
leaves it for good. -/
theorem propagateAt (h : e.Books reports taken closed) (index : Nat) :
    (e.propagateAt index).2.Books reports taken closed := by
  unfold Engine.propagateAt
  split
  · exact h
  · rename_i op queue htook
    obtain ⟨hperm, hnext⟩ := Queue.perm_takeAt? htook
    have htaken : queue.size + 1 = e.queue.size := hperm.length_eq
    generalize Operation.step _ _ _ = stepped
    obtain ⟨result, op', s⟩ := stepped
    have hstepped : Books reports taken closed { e with queue := queue, scans := s } :=
      h.aside ⟨rfl, rfl, rfl, rfl, hnext, by dsimp only; omega, rfl⟩
    have hback : Books reports taken closed
        { e with queue := queue.reinsert index op', scans := s } := by
      have hsize : (queue.reinsert index op').size = queue.size + 1 :=
        (queue.perm_reinsert index op').length_eq
      exact h.aside ⟨rfl, rfl, rfl, rfl, hnext, by dsimp only; omega, rfl⟩
    have hdelivered := fun status => hstepped.complete ⟨op', status⟩
    cases result with
    | ok result =>
      cases result with
      | finished =>
        have hcompleted := hdelivered .completed
        dsimp only
        generalize Engine.complete _ _ = completed at hcompleted
        obtain ⟨e', crash⟩ := completed
        cases crash <;> exact hcompleted
      | produced | pending => exact hback
    | error i =>
      cases i with
      | crashed crash => exact hstepped
      | failed f =>
        have hfailed := hdelivered (.failed f.display)
        dsimp only
        split
        · exact hback
        · generalize Engine.complete _ _ = completed at hfailed
          obtain ⟨e', crash⟩ := completed
          cases crash <;> exact hfailed

/-! ## Advancing -/

theorem settled (h : e.Books reports taken closed) {turn : Turn}
    (booked : turn.Booked e.registry e.metrics) :
    let result : Except Crash (Option Report) × Engine :=
      match turn.crash with
      | some crash => (.error crash, e.settle turn)
      | none => (.ok turn.report, e.settle turn)
    result.2.Books (reports ++ reported result.1) taken closed := by
  have hsettled := h.settle booked
  cases hcrash : turn.crash with
  | none => exact hsettled
  | some crash =>
    rw [booked.unreported (by simp [hcrash])] at hsettled
    exact hsettled

theorem advanceNext (h : e.Books reports taken closed) :
    e.advanceNext.2.Books (reports ++ reported e.advanceNext.1) taken closed :=
  h.settled Scheduler.booked_advanceNext

theorem advanceIndex (h : e.Books reports taken closed) (index : Nat) :
    (e.advanceIndex index).2.Books (reports ++ reported (e.advanceIndex index).1)
      taken closed :=
  h.settled (Scheduler.booked_advanceIndex index)

theorem awaitRetry (h : e.Books reports taken closed) :
    e.awaitRetry.Books reports taken closed := by
  unfold Engine.awaitRetry
  split
  · exact h.unchanged rfl
  · exact h

/-- A task of the pool gives the report of its advance. -/
theorem dispatchOne (h : e.Books reports taken closed) :
    e.dispatchOne.2.Books (reports ++ e.handedReports) taken closed := by
  unfold Engine.dispatchOne handedReports
  cases e.pool with
  | none =>
    rw [List.append_nil]
    exact h
  | some pool =>
    dsimp only
    by_cases hfull :
        min (pool.workers * e.config.queueTolerance) Config.maxCount ≤ pool.queued
    · rw [if_pos hfull, if_pos hfull, List.append_nil]
      exact h
    · rw [if_neg hfull, if_neg hfull]
      cases e.scheduler.nextDispatchable e.now e.registry with
      | none =>
        rw [List.append_nil]
        exact h
      | some index =>
        have hhanded : Books reports taken closed
            { e with
              pool := some pool.enqueue.runOne
              metrics := e.metrics.countDispatched } :=
          h.unchanged rfl
        have hadvance := hhanded.advanceIndex index
        dsimp only
        generalize Engine.advanceIndex _ _ = result at hadvance
        obtain ⟨result, e'⟩ := result
        cases result with
        | error crash => exact hadvance.unchanged rfl
        | ok report => exact hadvance

/-! ## Draining -/

theorem advanceTurn (h : e.Books reports taken closed) :
    e.advanceTurn.2.Books (reports ++ e.advanceReports) taken closed := by
  have hform := h.formQuietly
  unfold Engine.advanceTurn advanceReports
  generalize e.formQuietly = formed at hform
  obtain ⟨crash, e'⟩ := formed
  cases crash with
  | some crash =>
    rw [List.append_nil]
    exact hform
  | none =>
    have hadvance := hform.advanceNext
    dsimp only
    generalize e'.advanceNext = result at hadvance
    obtain ⟨result, e''⟩ := result
    cases result with
    | error crash => exact hadvance
    | ok report =>
      cases report with
      | some report => exact hadvance
      | none => exact hadvance.awaitRetry

theorem propagateTurn (h : e.Books reports taken closed) :
    e.propagateTurn.2.Books (reports ++ e.advanceReports) taken closed := by
  have hform := h.formQuietly
  unfold Engine.propagateTurn advanceReports
  generalize e.formQuietly = formed at hform
  obtain ⟨crash, e'⟩ := formed
  cases crash with
  | some crash =>
    rw [List.append_nil]
    exact hform
  | none =>
    have hadvance := hform.advanceNext
    dsimp only
    generalize e'.advanceNext = result at hadvance
    obtain ⟨result, e''⟩ := result
    cases result with
    | error crash => exact hadvance.unchanged rfl
    | ok report =>
      cases report with
      | some report => exact hadvance
      | none => exact hadvance.awaitRetry

theorem dispatchTurn (h : e.Books reports taken closed) :
    e.dispatchTurn.2.Books (reports ++ e.dispatchReports) taken closed := by
  have hform := h.formQuietly
  unfold Engine.dispatchTurn dispatchReports
  generalize e.formQuietly = formed at hform
  obtain ⟨crash, e'⟩ := formed
  cases crash with
  | some crash =>
    rw [List.append_nil]
    exact hform
  | none =>
    have hdispatch := hform.dispatchOne
    dsimp only
    generalize e'.dispatchOne = result at hdispatch
    obtain ⟨result, e''⟩ := result
    cases result with
    | error error => exact hdispatch
    | ok handed =>
      cases handed with
      | true => exact hdispatch
      | false => exact hdispatch.awaitRetry

/-- A drain gives the reports of its turns. -/
theorem drainBy {turn : Engine → Except Stop Unit × Engine}
    {turnReports : Engine → List Report}
    (hturn : ∀ {reports e}, e.Books reports taken closed →
      (turn e).2.Books (reports ++ turnReports e) taken closed)
    (h : e.Books reports taken closed) (fuel : Nat) :
    (drainBy turn fuel e).2.Books (reports ++ drainReports turn turnReports fuel e)
      taken closed := by
  induction fuel generalizing reports e with
  | zero =>
    rw [drainReports, List.append_nil]
    exact h
  | succ fuel ih =>
    have hnext := hturn h
    rw [drainBy_succ]
    unfold drainReports
    split
    · rw [List.append_nil]
      exact h
    · generalize turn e = result at hnext
      obtain ⟨result, e'⟩ := result
      cases result with
      | ok _ =>
        rw [← List.append_assoc]
        exact ih hnext
      | error stop =>
        dsimp only
        rw [List.append_nil]
        exact hnext

/-! ## Shutting down -/

theorem startPropagation (h : e.Books reports taken closed) :
    e.startPropagation.2.Books reports taken closed := by
  unfold Engine.startPropagation
  split
  · exact h
  · exact h.unchanged rfl

theorem stopPropagation (h : e.Books reports taken closed) :
    e.stopPropagation.2.Books reports taken closed := by
  unfold Engine.stopPropagation
  split
  · exact h.unchanged rfl
  · exact h

theorem setNumWorkers (h : e.Books reports taken closed) (workers : Nat) :
    (e.setNumWorkers workers).2.Books reports taken closed := by
  unfold Engine.setNumWorkers
  split
  · exact h
  · split
    · exact h
    · split
      · exact h
      · split
        · exact h
        · exact h.unchanged rfl

theorem abandonBatches (h : e.Books reports taken closed) (batches : List Batch)
    (count : Nat) :
    (e.abandonBatches batches count).2.Books reports taken closed := by
  induction batches generalizing e count with
  | nil => exact h
  | cons b others ih =>
    unfold Engine.abandonBatches
    split
    · exact ih h _
    · have hreceived :=
        h.receiveAll (b.failAll e.receiver abandonFailure e.scans).deliveries
      dsimp only
      split
      · exact hreceived
      · exact ih hreceived _
      · exact ih hreceived _

theorem abandonRemaining (h : e.Books reports taken true) :
    e.abandonRemaining.2.Books reports taken true := by
  have hemptied : Books reports taken true { e with queue := e.queue.drainAll.2 } :=
    h.aside ⟨rfl, rfl, rfl, rfl, rfl, Nat.zero_le _, rfl⟩
  have hqueue := hemptied.completeAll
    (e.queue.operations.map fun op => ⟨op, .failed abandonFailure.display⟩)
  have hdrain : e.queue.drainAll = (e.queue.operations, e.queue.drainAll.2) := rfl
  unfold Engine.abandonRemaining
  rw [hdrain]
  dsimp only at hqueue ⊢
  generalize Engine.completeAll _ _ = completed at hqueue
  obtain ⟨e', crash⟩ := completed
  cases crash with
  | some crash => exact hqueue
  | none =>
    have hbatches :=
      hqueue.clear.abandonBatches e'.registry.drain.1 e.queue.operations.length
    dsimp only at hbatches ⊢
    generalize Engine.abandonBatches _ _ _ = abandoned at hbatches
    obtain ⟨result, e''⟩ := abandoned
    cases result with
    | error crash => exact hbatches
    | ok count =>
      dsimp only
      split
      · exact hbatches.unchanged rfl
      · exact hbatches

theorem shutdown (h : e.Books reports taken true) :
    e.shutdown.2.Books reports taken true := by
  have hstopped := h.stopPropagation
  unfold Engine.shutdown
  generalize e.stopPropagation.2 = e' at hstopped
  dsimp only
  split
  · exact hstopped
  · have hclosed : Books reports taken true { e' with pool := none } :=
      hstopped.unchanged rfl
    have hall := hclosed.abandonRemaining
    generalize Engine.abandonRemaining _ = result at hall
    obtain ⟨result, e''⟩ := result
    cases result with
    | error crash => exact hall
    | ok count => exact hall.unchanged rfl

/-! ## Requests -/

/-- Every request keeps the books, with the reports that it gives and the
outcomes that it takes. -/
theorem request (h : e.Books reports taken closed) (request : Request)
    (clock : ∀ time, request = .call (.tick time) →
      (Calendar.instant? (time - e.ledger.retention)).isSome = true) :
    (e.request request).Books (reports ++ e.reportsOf request)
      (taken + (e.answerTo request).outcomes.length)
        (closed || request.isShutdown) := by
  have hplain : ∀ {e' : Engine}, e'.Books reports taken closed →
      e'.Books (reports ++ []) (taken + 0) (closed || false) := by
    intro e' h'
    rw [List.append_nil, Bool.or_false]
    exact h'
  have hreported : ∀ {e' : Engine} {more : List Report},
    e'.Books (reports ++ more) taken closed →
      e'.Books (reports ++ more) (taken + 0) (closed || false) := by
    intro e' more h'
    rw [Bool.or_false]
    exact h'
  cases request with
  | call call =>
    cases call with
    | execute planner query => exact hplain (h.execute planner query)
    | formBatch => exact hplain h.formBatch
    | formAllBatches => exact hplain (h.formBatches _ _)
    | propagateAt index => exact hplain (h.propagateAt index)
    | advanceNext => exact hreported h.advanceNext
    | runUntilDrained =>
      unfold Engine.request answer reportsOf Engine.runUntilDrained
      dsimp only
      by_cases hpropagating : e.propagating = true
      · rw [if_pos hpropagating, if_pos hpropagating]
        exact hplain h
      · rw [if_neg hpropagating, if_neg hpropagating]
        exact hreported (drainBy advanceTurn h _)
    | takeOutcome sequence =>
      show (e.takeOutcome sequence).2.Books (reports ++ [])
        (taken + (e.takeOutcome sequence).1.toList.length) (closed || false)
      rw [List.append_nil, Bool.or_false]
      unfold Engine.takeOutcome
      cases htook : Outcomes.take? sequence e.outcomes with
      | none => exact h
      | some took =>
        refine h.take ?_ (Outcomes.length_take? h.sorted htook)
        obtain ⟨_, -, rfl⟩ := Option.map_eq_some_iff.mp htook
        exact List.filter_sublist
    | takeOutcomes =>
      show Books (reports ++ []) (taken + e.outcomes.length) (closed || false) _
      rw [List.append_nil, Bool.or_false]
      exact h.take (List.nil_sublist _) (Nat.zero_add _)
    | shutdown =>
      show e.shutdown.2.Books (reports ++ []) taken (closed || true)
      rw [List.append_nil, Bool.or_true]
      exact h.close.shutdown
    | tick time =>
      exact hplain { h with ready := Ledger.obstacle?_of_isSome (clock time rfl) }
    | wait milliseconds | disturb d =>
      exact hplain (h.unchanged rfl)
  | advanceIndex index => exact hreported (h.advanceIndex index)
  | dispatchOne => exact hreported h.dispatchOne
  | dispatchUntilDrained =>
    unfold Engine.request reportsOf
    dsimp only
    rw [dispatchUntilDrained_eq]
    by_cases hpropagating : e.propagating = true
    · rw [if_pos hpropagating, if_pos hpropagating]
      exact hplain h
    · rw [if_neg hpropagating, if_neg hpropagating]
      exact hreported (drainBy dispatchTurn h _)
  | propagateUntilDrained =>
    have hstarted := h.startPropagation
    unfold Engine.request reportsOf
    dsimp only
    rw [propagateUntilDrained_eq]
    generalize e.startPropagation = started at hstarted
    obtain ⟨result, e₁⟩ := started
    cases result with
    | error error => exact hplain hstarted
    | ok _ =>
      have hdrained := drainBy propagateTurn hstarted e₁.drainBound
      dsimp only
      generalize Engine.drainBy _ _ _ = drained at hdrained
      obtain ⟨result, e₂⟩ := drained
      cases result with
      | error stop => exact hreported hdrained
      | ok _ => exact hreported hdrained.stopPropagation
  | startPropagation => exact hplain h.startPropagation
  | stopPropagation => exact hplain h.stopPropagation
  | setNumWorkers workers => exact hplain (h.setNumWorkers workers)

/-- So does every run of requests. -/
theorem requestAll (h : e.Books reports taken closed) (accounts : e.Accounts)
    (requests : List Request)
    (clock : ∀ time, .call (.tick time) ∈ requests →
      (Calendar.instant? (time - e.ledger.retention)).isSome = true)
    (steady : ∀ answer ∈ e.answers requests, answer.isLoss = false) :
    (e.requestAll requests).Accounts ∧
      (e.requestAll requests).Books (reports ++ e.reports requests)
        (taken + (e.takings requests).length)
          (closed || requests.any Request.isShutdown) ∧
      (e.requestAll requests).queue.nextSequence =
        e.queue.nextSequence + (e.acceptances requests).length := by
  induction requests generalizing e reports taken closed with
  | nil =>
    refine ⟨accounts, ?_, rfl⟩
    show e.Books (reports ++ []) taken (closed || false)
    rw [List.append_nil, Bool.or_false]
    exact h
  | cons request requests ih =>
    obtain ⟨hfirst, hrest⟩ := List.forall_mem_cons.mp steady
    have hclock : ∀ time, request = .call (.tick time) →
        (Calendar.instant? (time - e.ledger.retention)).isSome = true :=
      fun time htime => clock time (htime ▸ List.mem_cons_self)
    have hcontinues := accounts.request request hclock hfirst
    have hbooks := h.request request hclock
    have hlater : ∀ time, .call (.tick time) ∈ requests →
        (Calendar.instant? (time - (e.request request).ledger.retention)).isSome = true := by
      intro time htime
      rw [hcontinues.retention]
      exact clock time (List.mem_cons_of_mem _ htime)
    obtain ⟨hlast, hlastBooks, hnext⟩ := ih hbooks hcontinues.accounts hlater hrest
    have hone := congrArg List.length hcontinues.numbers
    rw [List.length_append, List.length_range, List.length_range] at hone
    have hacceptances : (e.acceptances (request :: requests)).length =
        (e.answerTo request).accepted?.toList.length +
          ((e.request request).acceptances requests).length := by
      unfold acceptances
      rw [answers, List.filterMap_cons]
      cases (e.answerTo request).accepted? with
      | none => exact (Nat.zero_add _).symm
      | some sequence => exact Nat.add_comm _ _
    have htakings : (e.takings (request :: requests)).length =
        (e.answerTo request).outcomes.length +
            ((e.request request).takings requests).length := by
      unfold takings
      rw [answers, List.flatMap_cons, List.length_append]
    refine ⟨hlast, ?_, ?_⟩
    · rw [Engine.reports, ← List.append_assoc, htakings, ← Nat.add_assoc, List.any_cons,
        ← Bool.or_assoc]
      exact hlastBooks
    · show (Engine.requestAll (e.request request) requests).queue.nextSequence = _
      rw [hnext, hone, hacceptances, Nat.add_assoc]

/-! ## Balances -/

theorem countP_delivered (e : Engine) :
    e.delivered.countP Delivery.isCompleted + e.delivered.countP
      (fun d => !d.isCompleted) =
      e.delivered.length := by
  rw [e.delivered.length_eq_countP_add_countP Delivery.isCompleted]
  simp only [Bool.not_eq_true, Bool.decide_eq_false]

/-- Queries that were deferred have completed, have failed or remain. -/
theorem balance_queries (h : e.Books reports taken closed) (accounts : e.Accounts) :
    e.metrics.queriesDeferred =
        e.metrics.queriesCompleted + e.metrics.queriesFailed + .ofNat e.remaining ∧
      (e.queue.nextSequence < UInt64.size → e.metrics.queriesDeferred.toNat =
        e.metrics.queriesCompleted.toNat + e.metrics.queriesFailed.toNat + e.remaining) := by
  have hended := countP_delivered e
  have hremaining := accounts.remaining_add
  rw [h.deferred, h.completed, h.failed]
  refine ⟨?_, fun few => ?_⟩
  · rw [← UInt64.ofNat_add, ← UInt64.ofNat_add, hended, Nat.add_comm, hremaining]
  · rw [UInt64.toNat_ofNat_of_lt' few, UInt64.toNat_ofNat_of_lt' (by omega),
      UInt64.toNat_ofNat_of_lt' (by omega)]
    omega

/-- Outcomes of queries that ended were dropped, are stored or were taken. -/
theorem balance_outcomes (h : e.Books reports taken closed) (accounts : e.Accounts) :
    e.metrics.outcomesEvicted + .ofNat e.outcomes.length + .ofNat taken =
        e.metrics.queriesCompleted + e.metrics.queriesFailed ∧
      (e.queue.nextSequence < UInt64.size →
        e.metrics.outcomesEvicted.toNat + e.outcomes.length + taken =
          e.metrics.queriesCompleted.toNat + e.metrics.queriesFailed.toNat) := by
  have hended := countP_delivered e
  have hremaining := accounts.remaining_add
  obtain ⟨evicted, hevicted, hbalance⟩ := h.evicted accounts.nodup_completed
  rw [h.completed, h.failed, hevicted]
  refine ⟨?_, fun few => ?_⟩
  · rw [← UInt64.ofNat_add, ← UInt64.ofNat_add, ← UInt64.ofNat_add, hended, hbalance]
  · rw [UInt64.toNat_ofNat_of_lt' (by omega), UInt64.toNat_ofNat_of_lt' (by omega),
      UInt64.toNat_ofNat_of_lt' (by omega)]
    omega

/-- Until a shutdown, batches that were formed were drained or live. -/
theorem balance_batches (h : e.Books reports taken false) :
    e.metrics.batchesFormed = e.metrics.batchesDrained + .ofNat e.batchCount ∧
      (e.queue.nextSequence < UInt64.size →
        e.metrics.batchesFormed.toNat = e.metrics.batchesDrained.toNat +
          e.batchCount) := by
  have hpeopled := h.peopled
  obtain ⟨drained, hdrained, hbalance⟩ := h.drained rfl
  rw [h.formed, hdrained]
  unfold batchCount
  refine ⟨?_, fun few => ?_⟩
  · rw [← UInt64.ofNat_add, hbalance]
  · rw [UInt64.toNat_ofNat_of_lt' (by omega), UInt64.toNat_ofNat_of_lt' (by omega)]
    omega

end Books

/-- The counters of an engine balance after every run of requests: deferred
queries have completed, have failed or remain; the outcomes of those that ended
were dropped, are stored or were taken; until a shutdown, formed batches were
drained or live; and the aborted rounds are the reports that tell of one, inside
of drains too.  The counters are words, and so are these sums; of fewer than 2 ^
64 accepted queries they are the sums of the numbers.  This holds for every
engine that can be made, whatever fails or crashes in a batch, as long as the
clock's readings let the ledger reach back over its retention and no operation
crashes while it is stepped on its own. -/
theorem counters_balance {config : Config} {names : Names} {graph : Graph}
    {start : Engine} (made : create config names graph = .ok start)
    (requests : List Request)
    (clock : ∀ time, .call (.tick time) ∈ requests →
      (Calendar.instant? (time - config.retentionMs)).isSome = true)
    (steady : ∀ answer ∈ start.answers requests, answer.isLoss = false) :
    let e := start.requestAll requests
    let m := e.metrics
    let taken := (start.takings requests).length
    m.queriesDeferred = m.queriesCompleted + m.queriesFailed + .ofNat e.remaining ∧
      m.outcomesEvicted + .ofNat e.outcomes.length + .ofNat taken =
        m.queriesCompleted + m.queriesFailed ∧
      (requests.any Request.isShutdown = false →
        m.batchesFormed = m.batchesDrained + .ofNat e.batchCount) ∧
      m.roundsAborted = .ofNat ((start.reports requests).countP (·.aborted)) ∧
      ((start.acceptances requests).length < 2 ^ 64 →
        m.queriesDeferred.toNat = m.queriesCompleted.toNat + m.queriesFailed.toNat +
          e.remaining ∧
        m.outcomesEvicted.toNat + e.outcomes.length + taken =
          m.queriesCompleted.toNat + m.queriesFailed.toNat ∧
        (requests.any Request.isShutdown = false →
          m.batchesFormed.toNat = m.batchesDrained.toNat + e.batchCount)) := by
  obtain ⟨hstart, hretention, hnone, -⟩ := accounts_create made
  have hfresh : start.Books [] 0 false :=
    (create_eq_ok_iff.mp made).2 ▸ Books.fresh config names graph
  rw [← hretention] at clock
  obtain ⟨haccounts, hbooks, hnext⟩ := hfresh.requestAll hstart requests clock steady
  rw [hnone, Nat.zero_add] at hnext
  rw [List.nil_append, Nat.zero_add, Bool.false_or] at hbooks
  intro e m taken
  obtain ⟨hqueries, hqueries'⟩ := hbooks.balance_queries haccounts
  obtain ⟨houtcomes, houtcomes'⟩ := hbooks.balance_outcomes haccounts
  have hbatches : requests.any Request.isShutdown = false → _ := fun hopen =>
    (hopen ▸ hbooks).balance_batches
  rw [hnext] at hqueries' houtcomes'
  refine ⟨hqueries, houtcomes, fun hopen => (hbatches hopen).1, hbooks.aborted,
    fun few => ?_⟩
  exact ⟨hqueries' few, houtcomes' few, fun hopen => (hbatches hopen).2 (hnext ▸ few)⟩

/-- A configuration with small batches and a small store. -/
def smallConfig : Config :=
  { batchSize := 2, retryBackoffMs := 0, outcomeCapacity := 2 }

/-- Requests by which six queries are accepted, two of them in a batch whose
first round is aborted, and one to be stepped on its own; a drain ends five,
some as failed since their scan or an operator crashes, and the last is in a
batch at the end. -/
def busyRequests : List Request :=
  let accept (links : List Link) : Request :=
    .call (.execute (fun _ => .ok { shakyPlan with links := links }) "rows")
  [accept [], accept [.limit 1 1], accept [.limit 2 2], .call .formBatch,
    .call .advanceNext, .call (.tick 1000), accept [.limit 0 0],
    accept [.fault (.afterRows 1 (.crashed .other))], .call (.propagateAt 0),
    .call .runUntilDrained, .call .takeOutcomes, accept [], .call .formBatch]

/-- Of the six queries five have ended, three of their outcomes were dropped and
two taken; two rounds were aborted, one of them inside of the drain. -/
theorem counters_balance_busy :
    ∃ start, create smallConfig default default = .ok start ∧
    let m := (start.requestAll busyRequests).metrics
    m.queriesDeferred.toNat = m.queriesCompleted.toNat + m.queriesFailed.toNat + 1 ∧
      m.outcomesEvicted.toNat + 0 + 2 = m.queriesCompleted.toNat +
        m.queriesFailed.toNat ∧
      m.batchesFormed.toNat = m.batchesDrained.toNat + 1 ∧
      m.roundsAborted = .ofNat 2 := by
  have hmade : create smallConfig default default =
      .ok (fresh smallConfig default default) :=
    create_eq_ok_iff.mpr ⟨by decide +kernel, rfl⟩
  refine ⟨_, hmade, ?_⟩
  have hclock : ∀ time, .call (.tick time) ∈ busyRequests →
      (Calendar.instant? (time - smallConfig.retentionMs)).isSome = true := by
    intro time htime
    simp only [busyRequests, List.mem_cons, List.not_mem_nil, reduceCtorEq,
      Request.call.injEq, Call.tick.injEq, false_or, or_false] at htime
    rw [htime]
    decide
  obtain ⟨-, -, -, haborted, hnumbers⟩ :=
    counters_balance hmade busyRequests hclock (by decide +kernel)
  obtain ⟨hqueries, houtcomes, hbatches⟩ := hnumbers (by decide +kernel)
  have hcounts :
    ((fresh smallConfig default default).requestAll busyRequests).remaining = 1 ∧
      ((fresh smallConfig default default).requestAll busyRequests).outcomes.length = 0 ∧
      ((fresh smallConfig default default).takings busyRequests).length = 2 ∧
      ((fresh smallConfig default default).requestAll busyRequests).batchCount = 1 ∧
      ((fresh smallConfig default default).reports busyRequests).countP (·.aborted) = 2 := by
    decide +kernel
  obtain ⟨hremaining, hstored, htaken, hlive, hreported⟩ := hcounts
  rw [hremaining] at hqueries
  rw [hstored, htaken] at houtcomes
  rw [hlive] at hbatches
  rw [hreported] at haborted
  exact ⟨hqueries, houtcomes, hbatches rfl, haborted⟩

end Lockstep.Engine
