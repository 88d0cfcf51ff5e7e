import Lockstep.Proofs.Batch.Handover
import Lockstep.Proofs.Engine.Shutdown
set_option autoImplicit false

/-!
# How many operations a failure is told of

The failure of a batch and the end of an engine tell how many operations were
handed over because of them.  That is not how many of them failed: a member that
was at its end already completes, and is told of all the same.
-/

namespace Lockstep.Engine

variable {e : Engine}

/-- Deliveries that were taken without a crash were all taken. -/
theorem receives_completeAll_of_ok (e : Engine) (deliveries : List Delivery)
    (h : (e.completeAll deliveries).2 = none) :
    Receives deliveries e (e.completeAll deliveries).1 := by
  cases deliveries with
  | nil => exact .refl e
  | cons d others =>
    have hready : e.receiver = none := by
      have hcrash := (e.receives_complete d).2
      unfold completeAll at h
      generalize e.complete d = completed at h hcrash
      obtain ⟨e', crash⟩ := completed
      cases crash with
      | some crash => cases h
      | none => exact hcrash.symm
    obtain ⟨taken, -, hreceives, hall⟩ := e.receives_completeAll (d :: others)
    rwa [(hall hready).2] at hreceives

/-- The members of batches that nobody is advancing. -/
def free (batches : List Batch) : List Operation :=
  (batches.filter fun b => !b.locked).flatMap (·.members)

theorem free_cons (b : Batch) (others : List Batch) :
    free (b :: others) = if b.locked then free others
      else b.members ++ free others := by
  unfold free
  cases hlocked : b.locked <;> simp [hlocked]

/-- Batches that are abandoned without a crash hand over their members and tell
how many these are. -/
theorem receives_abandonBatches_of_ok (e : Engine) (batches : List Batch)
    (count total : Nat) (h : (e.abandonBatches batches count).1 = .ok total) :
    Receives (Batch.failures abandonFailure (free batches)) e
      (e.abandonBatches batches count).2 ∧
      total = count + (free batches).length := by
  induction batches generalizing e count with
  | nil =>
    cases h
    exact ⟨.refl e, rfl⟩
  | cons b others ih =>
    rw [free_cons]
    unfold abandonBatches at h ⊢
    split at h
    · rename_i hlocked
      rw [if_pos hlocked, if_pos hlocked]
      exact ih e count h
    · rename_i hfree
      rw [if_neg hfree, if_neg hfree]
      dsimp only at h ⊢
      rcases b.failAll_eq e.receiver abandonFailure e.scans
        with hall | ⟨crash, first, -, hcrash⟩
      · rw [hall] at h ⊢
        obtain ⟨hrest, rfl⟩ := ih _ _ h
        have hfirst := e.receives_receiveAll (Batch.failures abandonFailure b.members)
        refine ⟨?_, ?_⟩
        · have hboth := hfirst.trans hrest
          rwa [← Batch.failures_append] at hboth
        · rw [List.length_append, Nat.add_assoc]
      · rw [hcrash] at h
        cases h

/-- What an engine hands over when it abandons all that remains. -/
def abandoned (e : Engine) : List Delivery :=
  (e.queue.operations.map fun op => ⟨op, .failed abandonFailure.display⟩) ++
    Batch.failures abandonFailure (free e.registry.batches)

theorem length_abandoned (e : Engine) :
    e.abandoned.length = e.queue.operations.length +
      (free e.registry.batches).length := by
  simp [abandoned, Batch.failures]

/-- What an engine logs when it has abandoned so many operations. -/
def abandonedEntries (count : Nat) : List LogEntry :=
  if 0 < count then [Event.operationsAbandoned.entry [("count", toString count)]] else []

/-- An engine that abandons what remains without a crash hands over all of
it, and counts it. -/
theorem delivered_abandonRemaining (e : Engine) (total : Nat)
    (h : e.abandonRemaining.1 = .ok total) :
    e.abandonRemaining.2.delivered = e.abandoned.reverse ++ e.delivered ∧
      total = e.abandoned.length ∧
      ∃ earlier,
        e.abandonRemaining.2.log.toList = earlier ++ abandonedEntries total := by
  have hdrain : e.queue.drainAll = (e.queue.operations, e.queue.drainAll.2) := rfl
  unfold abandonRemaining at h ⊢
  rw [hdrain] at h ⊢
  dsimp only at h ⊢
  have hqueue := receives_completeAll_of_ok { e with queue := e.queue.drainAll.2 }
    (e.queue.operations.map fun op => ⟨op, .failed abandonFailure.display⟩)
  generalize completeAll _ _ = completed at h hqueue ⊢
  obtain ⟨e', crash⟩ := completed
  cases crash with
  | some crash => cases h
  | none =>
    have hwaiting := hqueue rfl
    have hbatches :=
      receives_abandonBatches_of_ok { e' with registry := e'.registry.drain.2 }
      e'.registry.drain.1 e.queue.operations.length total
    dsimp only at h hwaiting hbatches ⊢
    generalize abandonBatches _ _ _ = result at h hbatches ⊢
    obtain ⟨result, e''⟩ := result
    cases result with
    | error crash => cases h
    | ok count =>
      have hcount : count = total := by
        dsimp only at h
        split at h <;> (cases h; rfl)
      subst hcount
      obtain ⟨hmembers, hlength⟩ := hbatches rfl
      have hregistry : e'.registry.drain.1 = e.registry.batches :=
        congrArg Registry.batches hwaiting.registry
      rw [hregistry] at hmembers hlength
      have hdelivered : e''.delivered = e.abandoned.reverse ++ e.delivered := by
        rw [hmembers.delivered, hwaiting.delivered]
        simp [abandoned]
      have htotal : count = e.abandoned.length := hlength.trans e.length_abandoned.symm
      unfold abandonedEntries
      dsimp only
      split
      · exact ⟨hdelivered, htotal, e''.log.toList, Array.toList_push⟩
      · exact ⟨hdelivered, htotal, e''.log.toList, (List.append_nil _).symm⟩

/-- A shutdown that ends reports how many operations it has handed over. -/
theorem delivered_shutdown (isOpen : e.pool ≠ none) (h : e.shutdown.1 = .ok ()) :
    e.shutdown.2.delivered = e.abandoned.reverse ++ e.delivered ∧
      ∃ earlier,
        e.shutdown.2.log.toList = earlier ++ (abandonedEntries e.abandoned.length ++
        [Event.engineShutdown.entry [("instance", e.shutdown.2.names.engine),
          ("abandoned", toString e.abandoned.length)]]) := by
  obtain ⟨hpool, -, hqueue, hregistry, hbefore⟩ := e.stopPropagation_same
  unfold shutdown at h ⊢
  dsimp only at h ⊢
  split at h
  · rename_i hnone
    exact absurd (hpool.symm.trans hnone) isOpen
  · have hrest := delivered_abandonRemaining { e.stopPropagation.2 with pool := none }
    generalize abandonRemaining _ = result at h hrest ⊢
    obtain ⟨result, e'⟩ := result
    cases result with
    | error crash => cases h
    | ok count =>
      obtain ⟨hdelivered, hcount, earlier, hlog⟩ := hrest count rfl
      have hsame : ({ e.stopPropagation.2 with pool := none } : Engine).abandoned =
          e.abandoned := by
        unfold abandoned
        dsimp only
        rw [hqueue, hregistry]
      rw [hsame] at hdelivered hcount
      subst hcount
      refine ⟨hdelivered.trans (congrArg _ hbefore), earlier, ?_⟩
      rw [← List.append_assoc, ← hlog]
      exact Array.toList_push

theorem failedFor_abandoned (e : Engine) :
    Batch.failedFor abandonFailure e.abandoned +
      (free e.registry.batches).countP Operation.isFinished =
      e.abandoned.length := by
  have hmembers := Batch.failedFor_failures abandonFailure (free e.registry.batches)
  have hwaiting : Batch.failedFor abandonFailure
      (e.queue.operations.map fun op => ⟨op, .failed abandonFailure.display⟩) =
        e.queue.operations.length := by
    simp [Batch.failedFor, Delivery.isFailedFor, Function.comp_def]
  rw [length_abandoned]
  unfold abandoned
  rw [Batch.failedFor_append, hwaiting, Nat.add_assoc, hmembers]

/-- If an advance tells of so many members of a batch that failed, then these are
all that had not completed in its rounds, and they were handed over: as failed for
the reason, except for those at their end.  The same is true of a batch that is
given up, and of all that a shutdown reports as abandoned.  So the number told is
that of the operations that failed exactly if none of them was at its end. -/
theorem told_eq_failed_add_finished (receiver : Receiver) (maxRetries : UInt32)
    (rounds : Nat) (b : Batch) (s : Scans) (given : Failure) (e : Engine) :
    (∀ members reason, (b.advance receiver maxRetries rounds s).ending =
      .failed members reason →
      ∃ earlier ended, earlier.length + ended.length = b.members.length ∧
        (b.advance receiver maxRetries rounds s).deliveries =
          Batch.completions earlier ++ Batch.failures reason ended ∧
        Batch.Told reason ended (b.advance receiver maxRetries rounds s).deliveries members) ∧
    (∀ members reason, (b.failAll receiver given s).ending = .failed members reason →
      reason = given ∧
      (b.failAll receiver given s).deliveries = Batch.failures reason b.members ∧
        Batch.Told reason b.members (b.failAll receiver given s).deliveries members) ∧
    (e.pool ≠ none → e.shutdown.1 = .ok () →
      e.shutdown.2.delivered = e.abandoned.reverse ++ e.delivered ∧
      ∃ earlier count, e.shutdown.2.log.toList = earlier ++ (abandonedEntries count ++
          [Event.engineShutdown.entry [("instance", e.shutdown.2.names.engine),
            ("abandoned", toString count)]]) ∧
        Batch.Told abandonFailure (free e.registry.batches) e.abandoned count) := by
  refine ⟨fun members reason h => ?_, fun members reason h => ?_, fun isOpen h => ?_⟩
  · obtain ⟨earlier, ended, hdeliveries, heveryone, rfl⟩ := Batch.deliveries_of_failed h
    refine ⟨earlier, ended, heveryone, hdeliveries, Batch.told_of_total ?_⟩
    rw [hdeliveries, Batch.failedFor_append, Batch.failedFor_completions, Nat.zero_add]
    exact Batch.failedFor_failures reason ended
  · rcases b.failAll_eq receiver given s with hall | ⟨crash, first, -, hcrash⟩
    · rw [hall] at h ⊢
      cases h
      exact ⟨rfl, rfl, Batch.told_of_total (Batch.failedFor_failures given b.members)⟩
    · rw [hcrash] at h
      cases h
  · obtain ⟨hdelivered, earlier, hlog⟩ := delivered_shutdown isOpen h
    exact ⟨hdelivered, earlier, _, hlog, Batch.told_of_total e.failedFor_abandoned⟩

/-- A scan that breaks at once. -/
def brokenScan : Scans where
  graph := default
  cursors := Array.replicate 2
    { source := .script [.interruption (.failed ⟨.executionFailed, "disk"⟩)] }

/-- An engine with the same two operations in a batch whose first round was
aborted, when the one that wants no row had found its end. -/
def abortedAtEnd : Engine :=
  let plan (links : List Link) : Plan :=
    ⟨.allNodes, .script [.interruption (.failed ⟨.transactionUnavailable, "closed"⟩)], links⟩
  ((fresh { registryCapacity := 1 } default default).answerAll [
    .execute (fun _ => .ok (plan [.ofQuota 0])) "cut",
    .execute (fun _ => .ok (plan [])) "all", .formBatch, .advanceNext]).2

/-- A batch that breaks tells of two members, one of whom may have completed,
and so does a shutdown. -/
theorem told_eq_failed_add_finished_pair :
    (∃ ended, Batch.Told ⟨.executionFailed, "disk"⟩ ended
      (Batch.cutAndAll.advance none 0 1 brokenScan).deliveries 2) ∧
    Batch.Told abandonFailure Batch.cutAndAll.members
      (Batch.cutAndAll.failAll none abandonFailure brokenScan).deliveries 2 ∧
    Batch.Told abandonFailure
      (free abortedAtEnd.registry.batches) abortedAtEnd.abandoned 2 ∧
      abortedAtEnd.shutdown.2.delivered = abortedAtEnd.abandoned.reverse ++
        abortedAtEnd.delivered := by
  obtain ⟨hadvance, hfailAll, hshutdown⟩ :=
    told_eq_failed_add_finished none 0 1 Batch.cutAndAll brokenScan
    abandonFailure abortedAtEnd
  have hbroken : (Batch.cutAndAll.advance none 0 1 brokenScan).ending =
      .failed 2 ⟨.executionFailed, "disk"⟩ := by decide +kernel
  have hgiven : (Batch.cutAndAll.failAll none abandonFailure brokenScan).ending =
      .failed 2 abandonFailure := by decide +kernel
  have hopen : abortedAtEnd.pool ≠ none :=
    Option.isSome_iff_ne_none.mp (by decide +kernel)
  have hok : abortedAtEnd.shutdown.1 = .ok () := by decide +kernel
  have htwo : Batch.failedFor abandonFailure abortedAtEnd.abandoned +
      (free abortedAtEnd.registry.batches).countP Operation.isFinished = 2 := by
        decide +kernel
  obtain ⟨earlier, ended, -, -, htold⟩ := hadvance _ _ hbroken
  obtain ⟨hdelivered, logged, count, -, hcount⟩ := hshutdown hopen hok
  obtain rfl : count = 2 := hcount.total.symm.trans htwo
  exact ⟨⟨ended, htold⟩, (hfailAll _ _ hgiven).2.2, hcount, hdelivered⟩

/-- Only one of two operations that are told to have failed has failed, in a
batch that breaks and at a shutdown. -/
theorem finished_told_as_failed :
    (let a := Batch.cutAndAll.advance none 0 1 brokenScan;
      a.ending = .failed 2 ⟨.executionFailed, "disk"⟩ ∧
        Batch.failedFor ⟨.executionFailed, "disk"⟩ a.deliveries = 1) ∧
      let e := abortedAtEnd.shutdown.2;
      e.log.back?.map (·.fields.getLast?) = some (some ("abandoned", "2")) ∧
        Batch.failedFor abandonFailure e.delivered = 1 := by
  decide +kernel

end Lockstep.Engine
