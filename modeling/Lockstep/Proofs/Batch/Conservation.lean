import Lockstep.Scheduler
set_option autoImplicit false

/-!
# No member is lost or doubled

A round steps its members and keeps them.  An advance whose deliveries are all
taken delivers some of its members, each once, and keeps the others.
-/

namespace Lockstep

namespace Batch

/-! ## Rounds -/

theorem sequence_step (op : Operation) (cached : Bool) (s : Scans) :
    (op.step cached s).2.1.sequence = op.sequence := rfl

/-- Pulling keeps every member in its place. -/
theorem map_sequence_pullPhase (id : CursorId) (before : Nat) (ops : List Operation)
    (s : Scans) :
    ((pullPhase id before ops s).stepped ++ (pullPhase id before ops s).waiting).map
      Operation.sequence = ops.map Operation.sequence := by
  induction ops generalizing s with
  | nil => rfl
  | cons op ops ih =>
    have hsequence := sequence_step op false s
    rw [pullPhase]
    generalize op.step false s = stepped at hsequence
    obtain ⟨result, op', s'⟩ := stepped
    rw [List.map_cons, ← hsequence]
    cases result with
    | error i => cases i <;> rfl
    | ok result =>
      dsimp only
      split
      · exact congrArg (op'.sequence :: ·) (ih s')
      · rfl

theorem map_sequence_readPhase (ops : List Operation) (s : Scans) :
    (readPhase ops s).2.1.map Operation.sequence = ops.map Operation.sequence := by
  induction ops generalizing s with
  | nil => rfl
  | cons op ops ih =>
    have hsequence := sequence_step op true s
    rw [readPhase]
    generalize op.step true s = stepped at hsequence
    obtain ⟨result, op', s'⟩ := stepped
    rw [List.map_cons, ← hsequence]
    cases result with
    | error i => cases i <;> rfl
    | ok result => exact congrArg (op'.sequence :: ·) (ih s')

/-- A round keeps every member in its place. -/
theorem map_sequence_round (members : List Operation) (s : Scans) :
    (round members s).2.1.map Operation.sequence = members.map Operation.sequence := by
  cases members with
  | nil => rfl
  | cons first others =>
    have hpull := map_sequence_pullPhase first.pipeline.cursor
      (s.cursor first.pipeline.cursor).pulls (first :: others) s
    unfold round
    dsimp only
    split
    · exact hpull
    · rw [List.map_append, map_sequence_readPhase, ← List.map_append]
      exact hpull

/-! ## Advances -/

/-- The sequence numbers that an advance accounts for: those delivered and
those still there. -/
def accounted (a : Advance) : List Nat :=
  a.deliveries.map (·.operation.sequence) ++ a.batch.members.map Operation.sequence

theorem map_sequence_failures (reason : Failure) (members : List Operation) :
    (failures reason members).map (·.operation.sequence) =
      members.map Operation.sequence := by
  unfold failures
  rw [List.map_map]
  rfl

theorem accounted_failAll (b : Batch) (reason : Failure) (s : Scans) :
    accounted (failAll none b reason s) = b.members.map Operation.sequence := by
  unfold accounted failAll deliver
  simp only [List.map_nil, List.append_nil]
  exact map_sequence_failures reason b.members

theorem perm_completions (members : List Operation) :
    ((completions (members.filter Operation.isFinished)).map (·.operation.sequence) ++
      (members.filter fun op => !op.isFinished).map Operation.sequence).Perm
        (members.map Operation.sequence) := by
  have hdelivered : (completions (members.filter Operation.isFinished)).map
    (·.operation.sequence) =
      (members.filter Operation.isFinished).map Operation.sequence := by
    unfold completions
    rw [List.map_map]
    rfl
  rw [hdelivered, ← List.map_append]
  exact (List.filter_append_perm Operation.isFinished members).map _

/-- An advance whose deliveries are taken accounts for all members. -/
theorem accounted_advance (maxRetries : UInt32) (rounds : Nat) (b : Batch) (s : Scans) :
    (accounted (advance none maxRetries rounds b s)).Perm
      (b.members.map Operation.sequence) := by
  induction rounds generalizing b s with
  | zero => exact .refl _
  | succ rounds ih =>
    rw [advance]
    split
    · exact .refl _
    · have hround := map_sequence_round b.members s
      generalize round b.members s = result at hround
      obtain ⟨ending, members, s'⟩ := result
      rw [← hround]
      cases ending with
      | completed =>
        refine .trans ?_ (perm_completions members)
        unfold accounted deliver Advance.after
        rw [List.map_append, List.append_assoc]
        exact (ih _ s').append_left _
      | aborted f =>
        dsimp only
        split
        · exact .refl _
        · split
          · rw [accounted_failAll]
          · exact .refl _
      | broken f =>
        dsimp only
        rw [accounted_failAll]
      | crashed crash => exact .refl _

end Batch

namespace Scheduler

/-- An advance whose crash is caught accounts for all members. -/
theorem accounted_guardedAdvance (sch : Scheduler) (b : Batch) (s : Scans) :
    (Batch.accounted (sch.guardedAdvance none b s)).Perm
      (b.members.map Operation.sequence) := by
  have hadvance := Batch.accounted_advance sch.maxRetries sch.stride b s
  unfold guardedAdvance
  generalize b.advance none sch.maxRetries sch.stride s = a at hadvance
  dsimp only
  split
  · rename_i crash _
    refine .trans (.of_eq ?_) hadvance
    have hfailed := Batch.accounted_failAll a.batch (crashFailure crash) a.scans
    unfold Batch.accounted at hfailed ⊢
    rw [List.map_append, List.append_assoc, hfailed]
  · exact hadvance

end Scheduler

end Lockstep
