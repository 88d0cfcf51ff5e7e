import Lockstep.Proofs.Engine.Answers
import Lockstep.Proofs.Engine.Endings
import Lockstep.Proofs.Engine.Lasting
import Lockstep.Proofs.Engine.Registered
set_option autoImplicit false

/-!
# Shutting down

A first shutdown abandons all that waits and every batch, and gives up the pool.
A later one finds no pool and does nothing, although the engine has gone on
accepting queries and forming batches: what was accepted behind the first
shutdown is never reported by another.
-/

namespace Lockstep.Engine

variable {e : Engine}

/-! ## One shutdown -/

theorem stopPropagation_same (e : Engine) :
    e.stopPropagation.2.pool = e.pool ∧ e.stopPropagation.2.receiver = e.receiver ∧
      e.stopPropagation.2.queue = e.queue ∧ e.stopPropagation.2.registry = e.registry ∧
      e.stopPropagation.2.delivered = e.delivered := by
  unfold stopPropagation
  split <;> exact ⟨rfl, rfl, rfl, rfl, rfl⟩

/-- An engine without a pool takes no notice of a shutdown: it leaves
everything where it was. -/
theorem shutdown_of_closed (h : e.pool = none) :
    e.shutdown.1 = .ok () ∧ e.shutdown.2.remaining = e.remaining ∧
      e.shutdown.2.batchCount = e.batchCount ∧
      e.shutdown.2.delivered = e.delivered := by
  obtain ⟨hpool, -, hqueue, hregistry, hdelivered⟩ := e.stopPropagation_same
  have hshut : e.shutdown = (.ok (), e.stopPropagation.2) := by
    unfold shutdown
    dsimp only
    rw [hpool, h]
  rw [hshut]
  refine ⟨rfl, ?_, congrArg Registry.live hregistry, hdelivered⟩
  unfold remaining pendingCount batchedCount
  rw [hqueue, hregistry]

theorem abandonBatches_isOk (ready : e.receiver = none) (batches : List Batch)
    (count : Nat) :
    ∃ total, (e.abandonBatches batches count).1 = .ok total := by
  induction batches generalizing e count with
  | nil => exact ⟨count, rfl⟩
  | cons b others ih =>
    unfold abandonBatches
    split
    · exact ih ready count
    · rw [ready]
      have hreceives := e.receives_receiveAll (Batch.failures abandonFailure b.members)
      exact ih (hreceives.receiver.trans ready) _

/-- Abandoning what remains leaves nothing behind. -/
theorem abandonRemaining_spec (ready : e.receiver = none) :
    (∃ total, e.abandonRemaining.1 = .ok total) ∧
      e.abandonRemaining.2.queue.operations = [] ∧
      e.abandonRemaining.2.registry = e.registry.drain.2 := by
  have hdrain : e.queue.drainAll = (e.queue.operations, e.queue.drainAll.2) := rfl
  obtain ⟨taken, -, hreceives, hall⟩ := receives_completeAll
    { e with queue := e.queue.drainAll.2 }
    (e.queue.operations.map fun op => ⟨op, .failed abandonFailure.display⟩)
  obtain ⟨hcrash, -⟩ := hall ready
  unfold abandonRemaining
  rw [hdrain]
  dsimp only at hreceives hcrash ⊢
  generalize completeAll _ _ = completed at hreceives hcrash
  obtain ⟨e', crash⟩ := completed
  subst hcrash
  have hready : ({ e' with registry := e'.registry.drain.2 } : Engine).receiver = none :=
    hreceives.receiver.trans ready
  obtain ⟨total, htotal⟩ :=
    abandonBatches_isOk hready e'.registry.drain.1 e.queue.operations.length
  obtain ⟨_, hbatches, -⟩ :=
    receives_abandonBatches { e' with registry := e'.registry.drain.2 }
    e'.registry.drain.1 e.queue.operations.length
  dsimp only at htotal hbatches ⊢
  generalize abandonBatches _ _ _ = abandoned at htotal hbatches
  obtain ⟨result, e''⟩ := abandoned
  subst htotal
  have hqueue : e''.queue.operations = [] := by
    rw [hbatches.queue]
    exact congrArg Queue.operations hreceives.queue
  have hregistry : e''.registry = e.registry.drain.2 := by
    rw [hbatches.registry]
    exact congrArg (·.drain.2) hreceives.registry
  dsimp only
  split <;> exact ⟨⟨total, rfl⟩, hqueue, hregistry⟩

/-- The first shutdown leaves nothing behind. -/
theorem shutdown_of_open (h : e.Accounts) (isOpen : e.pool ≠ none) :
    e.shutdown.1 = .ok () ∧ e.shutdown.2.remaining = 0 ∧
      e.shutdown.2.batchCount = 0 := by
  obtain ⟨hpool, hreceiver, -, hregistry, -⟩ := e.stopPropagation_same
  have hready : ({ e.stopPropagation.2 with pool := none } : Engine).receiver = none :=
    hreceiver.trans h.ready
  obtain ⟨⟨total, hok⟩, hqueue, hdrained⟩ := abandonRemaining_spec hready
  obtain ⟨-, -, hbatches⟩ := Registry.batches_drain h.sound
  unfold shutdown
  dsimp only at hok hqueue hdrained ⊢
  split
  · rename_i hnone
    exact absurd (hpool.symm.trans hnone) isOpen
  · generalize abandonRemaining _ = abandoned at hok hqueue hdrained
    obtain ⟨result, e'⟩ := abandoned
    subst hok
    rw [hregistry] at hdrained
    exact ⟨rfl, remaining_of_empty hqueue
      ((congrArg Registry.batches hdrained).trans hbatches),
      congrArg Registry.live hdrained⟩

/-- A shutdown leaves no pool. -/
theorem pool_shutdown (e : Engine) : e.shutdown.2.pool = none := by
  have hlasts := (lasting_workers none e.stopPropagation.2.numWorkers
    e.stopPropagation.2.propagating).abandonRemaining
      (show ({ e.stopPropagation.2 with pool := none } : Engine).pool = none ∧ _ from
        ⟨rfl, rfl, rfl⟩)
  unfold shutdown
  dsimp only at hlasts ⊢
  split
  · assumption
  · generalize abandonRemaining _ = abandoned at hlasts
    obtain ⟨result, e'⟩ := abandoned
    cases result <;> exact hlasts.1

/-! ## Runs that end with a shutdown -/

/-- After any calls the pool is gone exactly if one of them was a shutdown. -/
theorem pool_answerAll (e : Engine) (calls : List Call) (h : e.pool ≠ none) :
    (e.answerAll calls).2.pool = none ↔ .shutdown ∈ calls := by
  have hgone : ∀ (calls : List Call) (e : Engine), e.pool = none →
      (e.answerAll calls).2.pool = none := by
    intro calls
    induction calls with
    | nil => exact fun _ hnone => hnone
    | cons call calls ih =>
      intro e hnone
      refine ih _ ?_
      by_cases hcall : call = .shutdown
      · exact hcall ▸ e.pool_shutdown
      · exact (e.pool_answer hcall).trans hnone
  induction calls generalizing e with
  | nil => exact iff_of_false h List.not_mem_nil
  | cons call calls ih =>
    by_cases hcall : call = .shutdown
    · subst hcall
      exact iff_of_true (hgone calls _ e.pool_shutdown) List.mem_cons_self
    · rw [List.mem_cons, or_iff_right (Ne.symm hcall)]
      exact ih _ ((e.pool_answer hcall).symm ▸ h)

theorem Registered.answerAll (h : e.Registered) (accounts : e.Accounts)
    (calls : List Call)
    (clock : ∀ time, .tick time ∈ calls →
      (Calendar.instant? (time - e.ledger.retention)).isSome = true)
    (steady : ∀ answer ∈ (e.answerAll calls).1, answer.isLoss = false) :
    (e.answerAll calls).2.Registered := by
  induction calls generalizing e with
  | nil => exact h
  | cons call calls ih =>
    obtain ⟨hfirst, hrest⟩ := List.forall_mem_cons.mp steady
    have hcall := accounts.answer call
      (fun time htime => clock time (htime ▸ List.mem_cons_self)) hfirst
    refine ih (h.answer accounts call) hcall.accounts (fun time htime => ?_) hrest
    rw [hcall.retention]
    exact clock time (List.mem_cons_of_mem _ htime)

/-- A shutdown behind any other calls succeeds, and whatever was delivered by
then is completed exactly if it had found its end.  If it is the first one, or
if nothing remained that was accepted behind the first one, then afterwards
nothing remains, no batch is live, and each accepted operation was delivered
exactly once.  Otherwise it leaves all that remained where it was.  This holds
for every engine that can be made and every order of calls, as long as the
clock's readings let the ledger reach back over its retention and no operation
crashes while it is stepped on its own. -/
theorem shutdown_reports_once_unless_closed {config : Config} {names : Names}
    {graph : Graph} {start : Engine} (made : create config names graph = .ok start)
    (calls : List Call)
    (clock : ∀ time, .tick time ∈ calls →
      (Calendar.instant? (time - config.retentionMs)).isSome = true)
    (steady : ∀ answer ∈ (start.answerAll calls).1, answer.isLoss = false) :
    let before := (start.answerAll calls).2
    let run := start.answerAll (calls ++ [.shutdown])
    let accepted := run.1.filterMap Answer.accepted?
    run.1.getLast? = some (.shutDown (.ok ())) ∧
      (∀ d ∈ run.2.delivered, d.status = .completed ↔ d.operation.isFinished = true) ∧
      (.shutdown ∈ calls → run.2.remaining = before.remaining ∧
        run.2.delivered = before.delivered) ∧
      ((.shutdown ∈ calls → before.remaining = 0) →
        run.2.remaining = 0 ∧ run.2.batchCount = 0 ∧
          run.2.completed.Perm accepted) := by
  obtain ⟨haccounts, hretention, hnext, -⟩ := accounts_create made
  obtain ⟨-, rfl⟩ := create_eq_ok_iff.mp made
  rw [← hretention] at clock
  have hregistered :=
    (Registered.fresh config names graph).answerAll haccounts calls clock steady
  have hends := (Ends.fresh config names graph).answerAll (calls ++ [.shutdown])
  have hpool := (fresh config names graph).pool_answerAll calls (Option.some_ne_none _)
  obtain ⟨hbefore, -, hnumbers, -⟩ := haccounts.answerAll calls clock steady
  rw [answerAll_append] at hends ⊢
  generalize (fresh config names graph).answerAll calls = run
    at hregistered hends hpool hbefore hnumbers ⊢
  obtain ⟨answers, before⟩ := run
  dsimp only at hregistered hends hpool hbefore hnumbers ⊢
  have hlast : before.answerAll [.shutdown] =
    ([.shutDown before.shutdown.1], before.shutdown.2) := rfl
  have hshut := hbefore.moves before.moves_shutdown
  have hcarries := carries_of_moves before.moves_shutdown
  rw [hlast] at hends ⊢
  rw [hnext] at hnumbers
  have haccepted :
    (answers ++ [Answer.shutDown before.shutdown.1]).filterMap Answer.accepted? =
      List.range before.shutdown.2.queue.nextSequence := by
    rw [hcarries.next, hnumbers, List.filterMap_append]
    exact List.append_nil _
  dsimp only at hends ⊢
  rw [haccepted, List.getLast?_concat]
  cases hopen : before.pool with
  | none =>
    obtain ⟨hok, hremaining, hcount, hdelivered⟩ := shutdown_of_closed hopen
    refine ⟨congrArg (fun result => some (Answer.shutDown result)) hok, hends.delivered,
      fun _ => ⟨hremaining, hdelivered⟩, fun hnone => ?_⟩
    have hzero := hnone (hpool.mp hopen)
    exact ⟨hremaining.trans hzero,
      hcount.trans (hregistered.batches_of_remaining hzero).2,
      hshut.completed_of_remaining (hremaining.trans hzero)⟩
  | some pool =>
    have hsome : before.pool ≠ none := hopen ▸ Option.some_ne_none pool
    obtain ⟨hok, hzero, hcount⟩ := shutdown_of_open hbefore hsome
    exact ⟨congrArg (fun result => some (Answer.shutDown result)) hok, hends.delivered,
      fun h => absurd (hpool.mpr h) hsome, fun _ =>
        ⟨hzero, hcount, hshut.completed_of_remaining hzero⟩⟩

/-- A plan over two rows that is cut behind some of them. -/
def twoRowsCut (quota : Nat) : Plan :=
  ⟨.allNodes, .script [.row (.nat 1), .row (.nat 2)], [.ofQuota quota]⟩

/-- Two operations are advanced to the end of one of them, and a third one waits. -/
def threeBeforeShutdown : List Call :=
  let accept (quota : Nat) : Call := .execute (fun _ => .ok (twoRowsCut quota)) "rows"
  [accept 0, accept 2, .formBatch, .advanceNext, accept 1]

/-- A shutdown then completes none of the three, and each of them is delivered once. -/
theorem shutdown_reports_once_unless_closed_three :
    ∃ start, create { stride := 1 } default default = .ok start ∧
      let last := (start.answerAll (threeBeforeShutdown ++ [.shutdown])).2
      last.remaining = 0 ∧ last.batchCount = 0 ∧ last.completed.Perm [0, 1, 2] ∧
        ∀ d ∈ last.delivered,
          d.status = .completed ↔ d.operation.isFinished = true := by
  have hmade : create { stride := 1 } default default =
      .ok (fresh { stride := 1 } default default) :=
    create_eq_ok_iff.mpr ⟨by decide +kernel, rfl⟩
  have hclock : ∀ time, .tick time ∈ threeBeforeShutdown →
      (Calendar.instant? (time - ({ stride := 1 } : Config).retentionMs)).isSome = true := by
    intro time htime
    simp [threeBeforeShutdown] at htime
  have hopen : .shutdown ∉ threeBeforeShutdown := by simp [threeBeforeShutdown]
  obtain ⟨-, hfits, -, hnothing⟩ :=
    shutdown_reports_once_unless_closed hmade threeBeforeShutdown hclock
      (by decide +kernel)
  obtain ⟨hremaining, hcount, hcompleted⟩ := hnothing fun h => absurd h hopen
  have haccepted : ((fresh { stride := 1 } default default).answerAll
      (threeBeforeShutdown ++ [.shutdown])).1.filterMap Answer.accepted? = [0, 1, 2] := by
    decide +kernel
  rw [haccepted] at hcompleted
  exact ⟨_, hmade, hremaining, hcount, hcompleted, hfits⟩

/-- A query that is accepted behind a shutdown outlives a second one: it is
neither completed nor failed. -/
theorem accepted_behind_shutdown_outlives :
    ∃ start, create {} default personsAndRobot = .ok start ∧
      let run := start.answerAll [.shutdown, .execute Plan.ofText ageText, .shutdown]
      run.1.filterMap Answer.accepted? = [0] ∧ run.2.remaining = 1 ∧
        run.2.completed = [] :=
  ⟨_, create_eq_ok_iff.mpr ⟨Config.validate_default, rfl⟩, by decide +kernel⟩

end Lockstep.Engine
