import Lockstep.Proofs.Batch.Run
import Mathlib.Data.List.Induction
import Mathlib.Data.List.Infix
set_option autoImplicit false

/-!
# Rounds, one by one

The history of a run lists how its rounds ended, over all its calls.  An advance
of some rounds is the first of them, followed by an advance of the others unless
the first was aborted; so calls of any strides come down to single rounds.

A history is within a budget if it has no more aborted rounds in a row than that.
-/

namespace Lockstep

/-! ## Streaks of aborted rounds -/

/-- Whether the round was aborted. -/
def RoundEnd.isAborted : RoundEnd → Bool
  | .aborted _ => true
  | _ => false

/-- How many rounds in a row were aborted at the end of a history. -/
def trailingAborts (history : List RoundEnd) : Nat :=
  history.foldl (fun count ending => if ending.isAborted then count + 1 else 0) 0

/-- Whether no more rounds than the budget were ever aborted in a row. -/
def WithinBudget (budget : Nat) (history : List RoundEnd) : Prop :=
  ∀ streak, streak <:+: history → (∀ ending ∈ streak, ending.isAborted = true) →
    streak.length ≤ budget

theorem trailingAborts_concat (history : List RoundEnd) (ending : RoundEnd) :
    trailingAborts (history ++ [ending]) =
      if ending.isAborted then trailingAborts history + 1 else 0 := by
  unfold trailingAborts
  rw [List.foldl_append]
  rfl

/-- No streak at the end of a history is longer than its count says. -/
theorem length_le_trailingAborts {history streak : List RoundEnd}
    (h : streak <:+ history) (aborted : ∀ ending ∈ streak, ending.isAborted = true) :
    streak.length ≤ trailingAborts history := by
  induction history using List.reverseRecOn generalizing streak with
  | nil =>
    rw [List.suffix_nil.mp h]
    exact Nat.zero_le _
  | append_singleton history ending ih =>
    rcases List.suffix_concat_iff.mp h with rfl | ⟨front, rfl, hfront⟩
    · exact Nat.zero_le _
    · obtain ⟨hbefore, hending⟩ := List.forall_mem_append.mp aborted
      rw [trailingAborts_concat, if_pos (hending ending (List.mem_singleton_self _)),
        List.length_append]
      exact Nat.succ_le_succ (ih hfront hbefore)

/-- Some streak at the end of a history is as long as its count says. -/
theorem exists_suffix_trailingAborts (history : List RoundEnd) :
    ∃ streak, streak <:+ history ∧ (∀ ending ∈ streak, ending.isAborted = true) ∧
      streak.length = trailingAborts history := by
  induction history using List.reverseRecOn with
  | nil => exact ⟨[], List.nil_suffix, List.forall_mem_nil _, rfl⟩
  | append_singleton history ending ih =>
    obtain ⟨streak, hsuffix, haborted, hlength⟩ := ih
    rw [trailingAborts_concat]
    split
    · rename_i hending
      refine ⟨streak ++ [ending],
        List.suffix_concat_iff.mpr (.inr ⟨streak, rfl, hsuffix⟩), ?_, ?_⟩
      · exact List.forall_mem_append.mpr
          ⟨haborted, List.forall_mem_singleton.mpr hending⟩
      · rw [List.length_append, hlength]
        rfl
    · exact ⟨[], List.nil_suffix, List.forall_mem_nil _, rfl⟩

/-- A history is within the budget exactly if every streak that one of
its rounds ends is. -/
theorem withinBudget_iff {budget : Nat} {history : List RoundEnd} :
    WithinBudget budget history ↔ ∀ front, front <+: history →
      trailingAborts front ≤ budget := by
  constructor
  · intro h front hfront
    obtain ⟨streak, hsuffix, haborted, hlength⟩ := exists_suffix_trailingAborts front
    rw [← hlength]
    exact h streak (hsuffix.isInfix.trans hfront.isInfix) haborted
  · intro h streak hstreak haborted
    obtain ⟨front, hsuffix, hfront⟩ := List.infix_iff_suffix_prefix.mp hstreak
    exact Nat.le_trans (length_le_trailingAborts hsuffix haborted) (h front hfront)

instance (budget : Nat) (history : List RoundEnd) :
    Decidable (WithinBudget budget history) :=
  decidable_of_iff (∀ front ∈ history.inits, trailingAborts front ≤ budget) (by
    rw [withinBudget_iff]
    exact forall_congr' fun front => imp_congr_left (List.mem_inits front history))

theorem withinBudget_nil (budget : Nat) : WithinBudget budget [] := by
  intro streak hstreak _
  rw [List.infix_nil.mp hstreak]
  exact Nat.zero_le _

/-- One more round keeps within the budget exactly if the streak it ends in does. -/
theorem withinBudget_concat {budget : Nat} {history : List RoundEnd}
    {ending : RoundEnd} :
    WithinBudget budget (history ++ [ending]) ↔
      WithinBudget budget history ∧ trailingAborts (history ++ [ending]) ≤ budget := by
  rw [withinBudget_iff, withinBudget_iff]
  constructor
  · intro h
    exact ⟨fun front hfront => h front (List.prefix_concat_iff.mpr (.inr hfront)),
      h _ List.prefix_rfl⟩
  · rintro ⟨hbefore, hlast⟩ front hfront
    rcases List.prefix_concat_iff.mp hfront with rfl | hfront
    · exact hlast
    · exact hbefore front hfront

/-! ## The rounds of one advance -/

namespace Batch

/-- How the rounds of an advance end: so many at most, up to the first that does
not complete or that completes an operation which the receiver crashes on. -/
def endings (receiver : Receiver) : Nat → List Operation → Scans → List RoundEnd
  | 0, _, _ => []
  | rounds + 1, members, s =>
    if members.isEmpty then []
    else
      match round members s with
      | (.completed, members, s) =>
        match deliver receiver (completions (members.filter Operation.isFinished)) with
        | (_, some _) => [.completed]
        | (_, none) =>
          .completed :: endings receiver rounds
            (members.filter fun op => !op.isFinished) s
      | (ending, _, _) => [ending]

/-- What a batch fails with when its retries are used up by an aborted round. -/
def exhaustion (maxRetries : UInt32) (reason : Failure) : Failure :=
  if maxRetries = maxAborted then Scheduler.crashFailure overflowCrash else reason

end Batch

namespace BatchRun

variable {r : BatchRun} {stride : Nat} {maxRetries : UInt32} {members : List Operation}
  {s' : Scans}

/-- How the rounds of a call end. -/
def attempts (r : BatchRun) : BatchCall → List RoundEnd
  | .advance stride _ => Batch.endings none stride r.batch.members r.scans
  | .disturb _ => []

/-- How the rounds of all calls end, in order. -/
def history (r : BatchRun) : List BatchCall → List RoundEnd
  | [] => []
  | call :: calls => r.attempts call ++ (r.answer call).history calls

/-- The run after a completed round: members at their end were delivered. -/
def completed (r : BatchRun) (members : List Operation) (s' : Scans) : BatchRun where
  batch := { r.batch with
    members := members.filter fun op => !op.isFinished
    abortedRounds := 0
    rounds := r.batch.rounds + 1 }
  scans := s'
  deliveries := r.deliveries ++ Batch.completions (members.filter Operation.isFinished)

/-- The run after an aborted round that may be tried again. -/
def aborted (r : BatchRun) (members : List Operation) (s' : Scans) : BatchRun :=
  { r with
    batch :=
      { r.batch with members := members, abortedRounds := r.batch.abortedRounds + 1 }
    scans := s' }

theorem answer_advance_idle (maxRetries : UInt32)
    (h : stride = 0 ∨ r.batch.members = []) :
    r.answer (.advance stride maxRetries) = r ∧
      r.attempts (.advance stride maxRetries) = [] := by
  cases stride with
  | zero => exact ⟨by simp [answer, Scheduler.guardedAdvance, Batch.advance], rfl⟩
  | succ stride =>
    have hmembers := h.resolve_left (Nat.succ_ne_zero stride)
    constructor
    · simp [answer, Scheduler.guardedAdvance, Batch.advance, hmembers]
    · simp [attempts, Batch.endings, hmembers]

/-- An advance goes on behind a completed round. -/
theorem answer_advance_completed (stride : Nat) (maxRetries : UInt32)
    (hmembers : r.batch.members ≠ [])
    (hround : Batch.round r.batch.members r.scans = (.completed, members, s')) :
    r.answer (.advance (stride + 1) maxRetries) =
        (r.completed members s').answer (.advance stride maxRetries) ∧
      r.attempts (.advance (stride + 1) maxRetries) =
        .completed :: (r.completed members s').attempts
          (.advance stride maxRetries) := by
  have hnot : r.batch.members.isEmpty = false := by simpa using hmembers
  constructor
  · unfold answer Scheduler.guardedAdvance
    dsimp only
    rw [Batch.advance, hnot, hround]
    simp only [Bool.false_eq_true, if_false, Batch.deliver]
    unfold completed
    dsimp only
    generalize Batch.advance none maxRetries stride _ s' = a
    obtain ⟨ending, batch, scans, deliveries⟩ := a
    unfold Advance.after AdvanceEnd.after
    cases ending with
    | crashed crash => simp [List.append_assoc]
    | ran more | aborted f | failed count f => simp [List.append_assoc]
  · have hattempts : r.attempts (.advance (stride + 1) maxRetries) =
        Batch.endings none (stride + 1) r.batch.members r.scans := rfl
    rw [hattempts, Batch.endings, hnot, hround]
    rfl

/-- An advance ends with an aborted round if the retries allow one more. -/
theorem answer_advance_aborted {f : Failure} (hmembers : r.batch.members ≠ [])
    (hround : Batch.round r.batch.members r.scans = (.aborted f, members, s'))
    (hretries : r.batch.abortedRounds < maxRetries) :
    r.answer (.advance (stride + 1) maxRetries) = r.aborted members s' := by
  have hnot : r.batch.members.isEmpty = false := by simpa using hmembers
  have hlt : r.batch.abortedRounds.toNat < maxRetries.toNat :=
    UInt32.lt_iff_toNat_lt.mp hretries
  have hmax : r.batch.abortedRounds ≠ Batch.maxAborted := by
    intro hmax
    rw [hmax] at hlt
    have hbound := maxRetries.toNat_lt
    have hmaximum : Batch.maxAborted.toNat = 4294967295 := rfl
    omega
  have hle : ¬ maxRetries < r.batch.abortedRounds + 1 := by
    rw [UInt32.lt_iff_toNat_lt, UInt32.toNat_add]
    have := maxRetries.toNat_lt
    simp
    omega
  unfold answer Scheduler.guardedAdvance
  dsimp only
  rw [Batch.advance, hnot, hround]
  simp only [Bool.false_eq_true, if_false, hmax, GT.gt, hle, List.append_nil]
  rfl

/-- An aborted round behind the last retry fails the batch. -/
theorem answer_advance_exhausted {f : Failure} (hmembers : r.batch.members ≠ [])
    (hround : Batch.round r.batch.members r.scans = (.aborted f, members, s'))
    (hretries : r.batch.abortedRounds = maxRetries) :
    ∃ count, r.answer (.advance (stride + 1) maxRetries) =
      { batch := { r.batch with members := [], abortedRounds := count }
        scans := s'
        deliveries := r.deliveries ++
          Batch.failures (Batch.exhaustion maxRetries f) members } := by
  have hnot : r.batch.members.isEmpty = false := by simpa using hmembers
  unfold answer Scheduler.guardedAdvance Batch.exhaustion
  dsimp only
  rw [Batch.advance, hnot, hround, hretries]
  by_cases hmax : maxRetries = Batch.maxAborted
  · simp only [Bool.false_eq_true, if_false, hmax, if_true]
    exact ⟨_, rfl⟩
  · have hgt : maxRetries < maxRetries + 1 := by
      rw [UInt32.lt_iff_toNat_lt, UInt32.toNat_add]
      have hbound := maxRetries.toNat_lt
      have hne : maxRetries.toNat ≠ 4294967295 := fun h =>
        hmax (UInt32.toNat_inj.mp (h.trans rfl))
      simp
      omega
    simp only [Bool.false_eq_true, if_false, hmax, GT.gt, hgt, if_true]
    exact ⟨_, rfl⟩

theorem attempts_advance_aborted {f : Failure} (hmembers : r.batch.members ≠ [])
    (hround : Batch.round r.batch.members r.scans = (.aborted f, members, s')) :
    r.attempts (.advance (stride + 1) maxRetries) = [.aborted f] := by
  have hnot : r.batch.members.isEmpty = false := by simpa using hmembers
  have hattempts : r.attempts (.advance (stride + 1) maxRetries) =
      Batch.endings none (stride + 1) r.batch.members r.scans := rfl
  rw [hattempts, Batch.endings, hnot, hround]
  rfl

end BatchRun

end Lockstep
