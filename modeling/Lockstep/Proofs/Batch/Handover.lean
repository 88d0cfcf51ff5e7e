import Lockstep.Proofs.Scheduler.Single
set_option autoImplicit false

/-!
# What an advance hands over

The rounds of an advance hand over members that have completed.  If the batch then
fails, all members that are left are handed over too.  The failure tells how many
these were, and not how many of them failed: those at their end complete.
-/

namespace Lockstep

/-- Whether an operation was handed over as failed for a reason. -/
def Delivery.isFailedFor (reason : Failure) (d : Delivery) : Bool :=
  d.status = .failed reason.display

namespace Batch

variable {receiver : Receiver} {maxRetries : UInt32} {b : Batch} {s : Scans}
  {reason : Failure}

/-! ## Counting failures -/

/-- How many operations were handed over as failed for a reason. -/
def failedFor (reason : Failure) (deliveries : List Delivery) : Nat :=
  deliveries.countP (·.isFailedFor reason)

theorem failedFor_append (reason : Failure) (earlier later : List Delivery) :
    failedFor reason (earlier ++ later) = failedFor reason earlier +
      failedFor reason later :=
  List.countP_append

@[simp] theorem failedFor_completions (reason : Failure) (ops : List Operation) :
    failedFor reason (completions ops) = 0 := by
  simp [failedFor, completions, Delivery.isFailedFor]

theorem failedFor_failures (reason : Failure) (members : List Operation) :
    failedFor reason (failures reason members) + members.countP Operation.isFinished =
      members.length := by
  have hfailed : failedFor reason (failures reason members) =
      members.countP fun op => !op.isFinished := by
    unfold failedFor failures
    rw [List.countP_map]
    refine List.countP_congr fun op _ => ?_
    cases hfinished : op.isFinished <;> simp [Delivery.isFailedFor, hfinished]
  have hboth := members.length_eq_countP_add_countP Operation.isFinished
  simp only [Bool.not_eq_true, Bool.decide_eq_false] at hboth
  omega

/-- A number is told of the operations that a failure has ended: it counts those
that were handed over as failed for it, and those at their end as well.  So it
is right only if none was at its end. -/
structure Told (reason : Failure) (ended : List Operation) (deliveries : List Delivery)
    (told : Nat) :
    Prop where
  total : failedFor reason deliveries + ended.countP Operation.isFinished = told
  exact_iff : told = failedFor reason deliveries ↔ ∀ op ∈ ended, op.isFinished = false

theorem told_of_total {ended : List Operation} {deliveries : List Delivery} {told : Nat}
    (total : failedFor reason deliveries + ended.countP Operation.isFinished = told) :
    Told reason ended deliveries told := by
  refine ⟨total, ?_⟩
  have hnone : ended.countP Operation.isFinished = 0 ↔ ∀ op ∈ ended,
      op.isFinished = false := by
    simp only [List.countP_eq_zero, Bool.not_eq_true]
  rw [← hnone]
  omega

/-! ## Advancing a batch -/

theorem completions_append (earlier later : List Operation) :
    completions (earlier ++ later) = completions earlier ++ completions later :=
  List.map_append

theorem failures_append (reason : Failure) (earlier later : List Operation) :
    failures reason (earlier ++ later) = failures reason earlier ++
      failures reason later :=
  List.map_append

/-- What an advance can have come to, and what it has handed over by then.  One
that ran tells whether it has handed anyone over. -/
inductive AdvanceCase (b : Batch) : Advance → Prop
  | ran {b' : Batch} {s : Scans} (earlier : List Operation) :
      AdvanceCase b ⟨.ran (!earlier.isEmpty), b', s, completions earlier⟩
  | aborted {b' : Batch} {s : Scans} {reason : Failure} (earlier : List Operation)
      (counted : earlier ≠ [] → b.rounds < b'.rounds) :
      AdvanceCase b ⟨.aborted reason, b', s, completions earlier⟩
  /-- everyone who had not completed in a round was failed -/
  | failed {b' : Batch} {s : Scans} {reason : Failure} (earlier ended : List Operation)
      (someone : ended ≠ [])
      (everyone : earlier.length + ended.length = b.members.length) :
      AdvanceCase b ⟨.failed ended.length reason, b', s,
        completions earlier ++ failures reason ended⟩
  /-- nobody is left only if the crash came of handing over -/
  | crashed {b' : Batch} {s : Scans} {crash : Crash} {deliveries : List Delivery}
      (cause : b'.members = [] → deliveries ≠ []) :
      AdvanceCase b ⟨.crashed crash, b', s, deliveries⟩

/-- Members that completed in a round before an advance count as handed over by it. -/
theorem AdvanceCase.after {b₁ : Batch} {a : Advance} (h : AdvanceCase b₁ a)
    {done : List Operation} (rounds : b.rounds < b₁.rounds)
    (grown : b₁.rounds ≤ a.batch.rounds)
    (members : done.length + b₁.members.length = b.members.length) :
    AdvanceCase b (a.after (!done.isEmpty) (completions done)) := by
  unfold Advance.after AdvanceEnd.after
  cases h with
  | ran earlier =>
    have htold : (!done.isEmpty || !earlier.isEmpty) = !(done ++ earlier).isEmpty := by
      cases done <;> simp
    dsimp only
    rw [← completions_append, htold]
    exact .ran _
  | aborted earlier counted =>
    dsimp only
    rw [← completions_append]
    exact .aborted _ fun _ => Nat.lt_of_lt_of_le rounds grown
  | failed earlier ended someone everyone =>
    dsimp only
    rw [← List.append_assoc, ← completions_append]
    refine .failed _ ended someone ?_
    rw [List.length_append]
    omega
  | crashed cause =>
    exact .crashed fun hnobody hnone =>
      cause hnobody (List.append_eq_nil_iff.mp hnone).2

theorem advanceCase_failAll {b' : Batch} (nonempty : b.members ≠ [])
    (same : b'.members.length = b.members.length) :
    AdvanceCase b (failAll receiver b' reason s) := by
  rcases failAll_eq receiver b' reason s with hall | ⟨crash, first, -, hcrash⟩
  · rw [hall]
    refine .failed [] b'.members ?_ ?_
    · exact List.ne_nil_of_length_pos (same ▸ List.length_pos_iff.mpr nonempty)
    · rw [List.length_nil, Nat.zero_add, same]
  · rw [hcrash]
    exact .crashed fun _ => List.cons_ne_nil _ _

theorem advanceCase_advance (receiver : Receiver) (maxRetries : UInt32) (rounds : Nat)
    (b : Batch) (s : Scans) :
    AdvanceCase b (advance receiver maxRetries rounds b s) := by
  induction rounds generalizing b s with
  | zero => exact .ran []
  | succ rounds ih =>
    rw [advance]
    split
    · exact .ran []
    · rename_i hsome
      have hnonempty : b.members ≠ [] := fun hnone => hsome (List.isEmpty_iff.mpr hnone)
      have hlength := length_round b.members s
      generalize round b.members s = result at hlength
      obtain ⟨ending, members, s'⟩ := result
      dsimp only at hlength
      have hleft : members ≠ [] :=
        List.ne_nil_of_length_pos (hlength ▸ List.length_pos_iff.mpr hnonempty)
      cases ending with
      | completed =>
        dsimp only
        rcases deliver_cases receiver
            (completions (members.filter Operation.isFinished)) with
          hall | ⟨crash, first, -, hcrash⟩
        · rw [hall]
          refine (ih _ s').after (Nat.lt_succ_self b.rounds)
            (rounds_advance rounds _ s').1 ?_
          rw [← hlength]
          exact (members.length_eq_length_filter_add Operation.isFinished).symm
        · rw [hcrash]
          exact .crashed fun _ => List.cons_ne_nil _ _
      | aborted f =>
        dsimp only
        split
        · exact .crashed fun hnone => absurd hnone hleft
        · split
          · exact advanceCase_failAll hnonempty hlength
          · exact .aborted [] fun hnone => absurd rfl hnone
      | broken f => exact advanceCase_failAll hnonempty hlength
      | crashed crash => exact .crashed fun hnone => absurd hnone hleft

/-- An advance that failed has handed over every member: those that had
completed in its rounds, and then all others, whose number it tells. -/
theorem deliveries_of_failed {rounds members : Nat}
    (h : (advance receiver maxRetries rounds b s).ending = .failed members reason) :
    ∃ earlier ended, (advance receiver maxRetries rounds b s).deliveries =
        completions earlier ++ failures reason ended ∧
      earlier.length + members = b.members.length ∧ ended.length = members := by
  have hcase := advanceCase_advance receiver maxRetries rounds b s
  generalize advance receiver maxRetries rounds b s = a at h hcase
  cases hcase with
  | failed earlier ended someone everyone =>
    cases h
    exact ⟨earlier, ended, rfl, everyone, rfl⟩
  | ran earlier | aborted earlier counted | crashed cause => cases h

/-- An operation that wants no row and one that wants all, in one batch. -/
def cutAndAll : Batch :=
  let operations : List Operation :=
    [⟨0, "cut", { kind := .allNodes, cursor := 0, links := [.ofQuota 0] }⟩,
    ⟨1, "all", { kind := .allNodes, cursor := 1, links := [] }⟩]
  match form "pair" operations default with
  | .ok b => b
  | .error _ => default

end Batch

end Lockstep
