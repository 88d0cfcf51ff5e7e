import Lockstep.Proofs.Batch.Advance
import Lockstep.Proofs.Scheduler.Turn
set_option autoImplicit false

/-!
# Advances, round by round

A guarded advance of several rounds is one of a single round and, if that round
ran, one of the others.  A single round adds at most one to the count of its
batch.  Whether the batch is locked meanwhile makes no difference.
-/

namespace Lockstep

/-- What an advance left, with the batch locked or not. -/
def Advance.setLocked (a : Advance) (locked : Bool) : Advance :=
  { a with batch := { a.batch with locked := locked } }

/-- What an advance left, with deliveries that were made before. -/
def Advance.behind (a : Advance) (earlier : List Delivery) : Advance :=
  { a with deliveries := earlier ++ a.deliveries }

/-- An advance that goes on if it ran so far. -/
def Advance.andThen (a : Advance) (more : Batch → Scans → Advance) : Advance :=
  match a.ending with
  | .ran completedAny => (more a.batch a.scans).after completedAny a.deliveries
  | _ => a

section

variable {a : Advance} {completedAny : Bool}

theorem Advance.andThen_of_ran (ran : a.ending = .ran completedAny)
    (more : Batch → Scans → Advance) :
    a.andThen more = (more a.batch a.scans).after completedAny a.deliveries := by
  unfold andThen
  rw [ran]

theorem Advance.andThen_of_not_ran
    (stopped : ∀ completedAny, a.ending ≠ .ran completedAny)
    (more : Batch → Scans → Advance) : a.andThen more = a := by
  unfold andThen
  split
  · rename_i hran
    exact absurd hran (stopped _)
  · rfl

theorem AdvanceEnd.after_of_not_ran {ending : AdvanceEnd}
    (stopped : ∀ more, ending ≠ .ran more) (completedAny : Bool) :
    ending.after completedAny = ending := by
  cases ending with
  | ran more => exact absurd rfl (stopped more)
  | aborted | failed | crashed => rfl

end

namespace Batch

variable {receiver : Receiver} {maxRetries : UInt32} {b : Batch} {s : Scans}

theorem failAll_cases (receiver : Receiver) (b : Batch) (reason : Failure) (s : Scans) :
    (failAll receiver b reason s).batch.rounds = b.rounds ∧
      ∀ completedAny, (failAll receiver b reason s).ending ≠ .ran completedAny := by
  rcases failAll_eq receiver b reason s with hall | ⟨crash, first, -, hcrash⟩
  · simp [hall]
  · simp [hcrash]

theorem failAll_setLocked (receiver : Receiver) (b : Batch) (reason : Failure)
    (s : Scans) (locked : Bool) :
    failAll receiver { b with locked := locked } reason s =
      (failAll receiver b reason s).setLocked locked := by
  unfold failAll
  dsimp only
  split <;> rfl

theorem advance_zero (b : Batch) (s : Scans) :
    advance receiver maxRetries 0 b s = ⟨.ran false, b, s, []⟩ := rfl

/-- Several rounds are the first, and the others if it ran. -/
theorem advance_succ (count : Nat) (b : Batch) (s : Scans) :
    advance receiver maxRetries (count + 1) b s =
      (advance receiver maxRetries 1 b s).andThen
        (advance receiver maxRetries count) := by
  rw [advance, advance]
  split
  · rename_i hempty
    rw [Advance.andThen_of_ran rfl, advance_of_isEmpty (List.isEmpty_iff.mp hempty)]
    rfl
  · split
    · dsimp only
      split
      · rfl
      · rw [advance_zero, Advance.andThen_of_ran rfl]
        simp [Advance.after]
    · dsimp only
      split
      · rfl
      · split
        · rw [Advance.andThen_of_not_ran (failAll_cases _ _ _ _).2]
        · rfl
    · rw [Advance.andThen_of_not_ran (failAll_cases _ _ _ _).2]
    · rfl

/-- Rounds of an advance only add to the count of the batch, and no more
than were asked for. -/
theorem rounds_advance (count : Nat) (b : Batch) (s : Scans) :
    b.rounds ≤ (advance receiver maxRetries count b s).batch.rounds ∧
      (advance receiver maxRetries count b s).batch.rounds ≤ b.rounds + count := by
  induction count generalizing b s with
  | zero => exact ⟨Nat.le_refl _, Nat.le_refl _⟩
  | succ count ih =>
    have hsame : ∀ rounds, rounds = b.rounds → b.rounds ≤ rounds ∧
        rounds ≤ b.rounds + (count + 1) := by
      rintro _ rfl
      exact ⟨Nat.le_refl _, Nat.le_add_right _ _⟩
    rw [advance]
    split
    · exact hsame _ rfl
    · split
      · dsimp only
        split
        · exact hsame _ rfl
        · rename_i members s' _ _ _ _
          have hmore := ih { b with
            members := members.filter fun op => !op.isFinished
            abortedRounds := 0
            rounds := b.rounds + 1 } s'
          dsimp only [Advance.after] at hmore ⊢
          omega
      · split
        · exact hsame _ rfl
        · dsimp only
          split
          · exact hsame _ (failAll_cases _ _ _ _).1
          · exact hsame _ rfl
      · exact hsame _ (failAll_cases _ _ _ _).1
      · exact hsame _ rfl

/-- An advance of a locked batch is one of the batch. -/
theorem advance_setLocked (count : Nat) (b : Batch) (s : Scans) (locked : Bool) :
    advance receiver maxRetries count { b with locked := locked } s =
      (advance receiver maxRetries count b s).setLocked locked := by
  induction count generalizing b s with
  | zero => rfl
  | succ count ih =>
    rw [advance, advance]
    cases b.members.isEmpty with
    | true => rfl
    | false =>
      simp only [Bool.false_eq_true, if_false]
      generalize round b.members s = result
      obtain ⟨ending, members, s'⟩ := result
      cases ending with
      | completed =>
        dsimp only
        generalize deliver receiver
          (completions (members.filter Operation.isFinished)) = delivered
        obtain ⟨taken, crash⟩ := delivered
        cases crash with
        | some crash => rfl
        | none =>
          have hmore := ih { b with
            members := members.filter fun op => !op.isFinished
            abortedRounds := 0
            rounds := b.rounds + 1 } s'
          dsimp only at hmore ⊢
          rw [hmore]
          rfl
      | aborted reason =>
        dsimp only
        split
        · rfl
        · split
          · exact failAll_setLocked receiver
              { b with members := members, abortedRounds := b.abortedRounds + 1 }
                reason s' locked
          · rfl
      | broken reason =>
        exact failAll_setLocked receiver { b with members := members } reason s' locked
      | crashed crash => rfl

end Batch

/-! ## Guarding against a crash -/

/-- An advance whose crash was caught: the batch was failed. -/
def Advance.guarded (receiver : Receiver) (a : Advance) : Advance :=
  match a.ending with
  | .crashed crash =>
    (a.batch.failAll receiver (Scheduler.crashFailure crash) a.scans).behind a.deliveries
  | _ => a

namespace Advance

variable {receiver : Receiver}

theorem guarded_of_ran {a : Advance} {completedAny : Bool}
    (h : a.ending = .ran completedAny) :
    a.guarded receiver = a := by
  unfold guarded
  rw [h]

theorem ending_guarded_ne_ran {a : Advance}
    (h : ∀ completedAny, a.ending ≠ .ran completedAny) (completedAny : Bool) :
    (a.guarded receiver).ending ≠ .ran completedAny := by
  unfold guarded
  split
  · exact (Batch.failAll_cases _ _ _ _).2 completedAny
  · exact h completedAny

theorem guarded_after (a : Advance) (completedAny : Bool) (earlier : List Delivery) :
    (a.after completedAny earlier).guarded receiver =
      (a.guarded receiver).after completedAny earlier := by
  obtain ⟨ending, batch, scans, deliveries⟩ := a
  cases ending with
  | crashed crash =>
    have hfail := AdvanceEnd.after_of_not_ran
      (Batch.failAll_cases receiver batch (Scheduler.crashFailure crash) scans).2 completedAny
    show (Batch.failAll receiver batch _ scans).behind (earlier ++ deliveries) =
      ((Batch.failAll receiver batch _ scans).behind deliveries).after
        completedAny earlier
    unfold behind after
    dsimp only
    rw [hfail, List.append_assoc]
  | ran | aborted f | failed members f => rfl

/-- A crash is caught in the first part of an advance or in the rest. -/
theorem guarded_andThen (a : Advance) (more : Batch → Scans → Advance) :
    (a.andThen more).guarded receiver =
      (a.guarded receiver).andThen fun b s => (more b s).guarded receiver := by
  by_cases hran : ∃ completedAny, a.ending = .ran completedAny
  · obtain ⟨completedAny, hran⟩ := hran
    rw [guarded_of_ran hran, andThen_of_ran hran, andThen_of_ran hran, guarded_after]
  · have hstopped := not_exists.mp hran
    rw [andThen_of_not_ran hstopped,
      andThen_of_not_ran (ending_guarded_ne_ran hstopped)]

theorem guarded_setLocked (a : Advance) (locked : Bool) :
    (a.setLocked locked).guarded receiver = (a.guarded receiver).setLocked locked := by
  obtain ⟨ending, batch, scans, deliveries⟩ := a
  cases ending with
  | crashed crash =>
    have hfail := Batch.failAll_setLocked receiver batch
      (Scheduler.crashFailure crash) scans locked
    unfold guarded setLocked
    dsimp only
    rw [hfail]
    rfl
  | ran | aborted f | failed members f => rfl

theorem rounds_guarded (a : Advance) :
    (a.guarded receiver).batch.rounds = a.batch.rounds := by
  unfold guarded
  split
  · exact (Batch.failAll_cases _ _ _ _).1
  · rfl

end Advance

namespace Scheduler

/-- The same rules, for advances of so many rounds. -/
def withStride (sch : Scheduler) (stride : Nat) : Scheduler :=
  { sch with stride := stride }

theorem guardedAdvance_eq (sch : Scheduler) (receiver : Receiver) (b : Batch)
    (s : Scans) :
    sch.guardedAdvance receiver b s =
      (b.advance receiver sch.maxRetries sch.stride s).guarded receiver := rfl

/-- A guarded advance of several rounds is one of the first, and one of the
others if that round ran. -/
theorem guardedAdvance_succ (sch : Scheduler) (receiver : Receiver) (count : Nat)
    (b : Batch) (s : Scans) :
    (sch.withStride (count + 1)).guardedAdvance receiver b s =
      ((sch.withStride 1).guardedAdvance receiver b s).andThen
        ((sch.withStride count).guardedAdvance receiver) := by
  rw [guardedAdvance_eq]
  exact (congrArg (Advance.guarded receiver) (Batch.advance_succ count b s)).trans
    (Advance.guarded_andThen _ _)

theorem rounds_guardedAdvance (sch : Scheduler) (receiver : Receiver) (b : Batch)
    (s : Scans) :
    b.rounds ≤ (sch.guardedAdvance receiver b s).batch.rounds ∧
      (sch.guardedAdvance receiver b s).batch.rounds ≤ b.rounds + sch.stride := by
  rw [guardedAdvance_eq, Advance.rounds_guarded]
  exact Batch.rounds_advance sch.stride b s

/-- A guarded advance of a locked batch is one of the batch. -/
theorem guardedAdvance_setLocked (sch : Scheduler) (receiver : Receiver) (b : Batch)
    (s : Scans) (locked : Bool) :
    sch.guardedAdvance receiver { b with locked := locked } s =
      (sch.guardedAdvance receiver b s).setLocked locked := by
  rw [guardedAdvance_eq, guardedAdvance_eq, Batch.advance_setLocked,
    Advance.guarded_setLocked]

end Scheduler

end Lockstep
