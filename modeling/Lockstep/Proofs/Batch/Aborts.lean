import Lockstep.Config
import Lockstep.Proofs.Batch.Lifetime
import Lockstep.Proofs.Batch.Retry
import Mathlib.Algebra.GroupWithZero.Nat
set_option autoImplicit false

/-!
# Counting aborted rounds

While a batch is alive, its count of aborted rounds is the number of those that
ended its history in a row, and that is no more than the retries.  So the one
round that goes beyond the retries is still counted exactly, unless the retries
are the largest count that there is: then that round overflows.

The wait that follows a count is computed without any loss, whatever backoff a
configuration can hold.
-/

namespace Lockstep

namespace Scheduler

/-- A backoff of 64 bits is doubled exactly. -/
theorem retryDelay_eq {sch : Scheduler} (word : sch.backoff ≤ Config.maxCount)
    (aborted : Nat) :
    sch.retryDelay aborted = sch.backoff * 2 ^ min (aborted - 1) maxDoublings := by
  have hpower : 2 ^ min (aborted - 1) maxDoublings ≤ 2 ^ maxDoublings :=
    Nat.pow_le_pow_right (by decide) (Nat.min_le_right _ _)
  refine Nat.min_eq_left ?_
  calc sch.backoff * 2 ^ min (aborted - 1) maxDoublings
      ≤ Config.maxCount * 2 ^ maxDoublings := Nat.mul_le_mul word hpower
    _ ≤ maxDelay := by decide

theorem retryDelay_mono (sch : Scheduler) {fewer more : Nat} (h : fewer ≤ more) :
    sch.retryDelay fewer ≤ sch.retryDelay more := by
  have hdoublings : min (fewer - 1) maxDoublings ≤ min (more - 1) maxDoublings := by
    omega
  have hpower : Nat.pow 2 (min (fewer - 1) maxDoublings) ≤
      Nat.pow 2 (min (more - 1) maxDoublings) :=
    Nat.pow_le_pow_right (by decide) hdoublings
  have hdelay := Nat.mul_le_mul_left sch.backoff hpower
  exact Nat.le_min.mpr ⟨Nat.le_trans (Nat.min_le_left _ _) hdelay, Nat.min_le_right _ _⟩

end Scheduler

namespace Batch

variable {receiver : Receiver} {maxRetries : UInt32} {history : List RoundEnd}
  {b : Batch} {s : Scans}

/-! ## Counts -/

/-- A batch that is alive has counted the aborted rounds at the end of its
history, and the retries allow them. -/
def Counted (maxRetries : UInt32) (history : List RoundEnd) (b : Batch) : Prop :=
  b.members ≠ [] →
    b.abortedRounds.toNat = trailingAborts history ∧
    trailingAborts history ≤ maxRetries.toNat

theorem counted_of_isEmpty (h : b.members = []) : Counted maxRetries history b :=
  fun some => absurd h some

/-- What an advance makes of the count, if its rounds ended in some way: a
batch that is left has counted them, and if the last one was aborted, it was
counted or overflowed. -/
structure Counting (maxRetries : UInt32) (history ended : List RoundEnd) (a : Advance) :
    Prop where
  counted : (∀ crash, a.ending ≠ .crashed crash) →
    Counted maxRetries (history ++ ended) a.batch
  aborted : ∀ f, ended.getLast? = some (.aborted f) →
    trailingAborts (history ++ ended) ≤ maxRetries.toNat + 1 ∧
      if trailingAborts (history ++ ended) = 2 ^ 32 then
        a.ending = .crashed overflowCrash
      else a.batch.abortedRounds.toNat = trailingAborts (history ++ ended)

theorem counting_ran (h : Counted maxRetries history b) (s : Scans) :
    Counting maxRetries history [] ⟨.ran false, b, s, []⟩ where
  counted := fun _ => by
    rw [List.append_nil]
    exact h
  aborted := fun _ hlast => by cases hlast

theorem counting_ended {ending : RoundEnd} {a : Advance}
    (unaborted : ending.isAborted = false)
    (emptied : (∀ crash, a.ending ≠ .crashed crash) → a.batch.members = []) :
    Counting maxRetries history [ending] a where
  counted := fun caught => counted_of_isEmpty (emptied caught)
  aborted := fun f hlast => by
    cases hlast
    cases unaborted

/-- An aborted round is counted up to the largest count, and fails the batch
behind the last retry. -/
theorem counting_aborted {rounds : Nat} {f : Failure} {members : List Operation}
    {s' : Scans} (h : Counted maxRetries history b) (some : b.members ≠ [])
    (hround : round b.members s = (.aborted f, members, s')) :
    Counting maxRetries history [.aborted f]
      (b.advance receiver maxRetries (rounds + 1) s) := by
  obtain ⟨hcount, hretries⟩ := h some
  have hstreak : trailingAborts (history ++ [.aborted f]) =
      b.abortedRounds.toNat + 1 := by
    rw [trailingAborts_concat, hcount]
    rfl
  have hmax : b.abortedRounds = maxAborted ↔
      trailingAborts (history ++ [.aborted f]) = 2 ^ 32 := by
    rw [hstreak, ← UInt32.toNat_inj]
    change _ = 4294967295 ↔ _ + 1 = 4294967296
    omega
  rw [advance, if_neg (mt List.isEmpty_iff.mp some), hround]
  dsimp only
  by_cases hfull : b.abortedRounds = maxAborted
  · rw [if_pos hfull]
    refine ⟨fun caught => absurd rfl (caught overflowCrash), fun _ _ => ⟨by omega, ?_⟩⟩
    rw [if_pos (hmax.mp hfull)]
  · rw [if_neg hfull]
    have hsucc := toNat_succ_of_ne hfull
    have hcounted (a : Advance) (count : a.batch.abortedRounds = b.abortedRounds + 1) :
        trailingAborts (history ++ [.aborted f]) ≤ maxRetries.toNat + 1 ∧
          if trailingAborts (history ++ [.aborted f]) = 2 ^ 32 then
            a.ending = .crashed overflowCrash
          else a.batch.abortedRounds.toNat =
              trailingAborts (history ++ [.aborted f]) := by
      refine ⟨by omega, ?_⟩
      rw [if_neg (mt hmax.mpr hfull), count, hsucc, hstreak]
    by_cases hspent : b.abortedRounds + 1 > maxRetries
    · rw [if_pos hspent]
      exact ⟨fun _ => counted_of_isEmpty (by rw [batch_failAll]),
        fun _ _ => hcounted _ (by rw [batch_failAll])⟩
    · rw [if_neg hspent]
      refine ⟨fun _ _ => ⟨hsucc.trans hstreak.symm, ?_⟩, fun _ _ => hcounted _ rfl⟩
      rw [hstreak, ← hsucc]
      exact Nat.le_of_not_lt hspent

/-- A completed round in front makes no difference to what comes of the
rounds behind it. -/
theorem Counting.after_completed {ended : List RoundEnd} {a : Advance}
    (h : Counting maxRetries (history ++ [.completed]) ended a) (completedAny : Bool)
    (deliveries : List Delivery) :
    Counting maxRetries history (.completed :: ended)
      (a.after completedAny deliveries) := by
  have happend : history ++ .completed :: ended = history ++ [.completed] ++ ended := by
    rw [List.append_assoc, List.singleton_append]
  refine ⟨fun caught => ?_, fun f hlast => ?_⟩
  · rw [happend]
    exact h.counted fun crash hcrash =>
      caught crash (Advance.ending_after_eq_crashed.mpr hcrash)
  · rw [happend, Advance.ending_after_eq_crashed]
    cases ended with
    | nil => cases hlast
    | cons next ended =>
      rw [List.getLast?_cons_cons] at hlast
      exact h.aborted f hlast

theorem counting_advance (receiver : Receiver) (rounds : Nat) (s : Scans)
    (h : Counted maxRetries history b) :
    Counting maxRetries history (endings receiver rounds b.members s)
      (b.advance receiver maxRetries rounds s) := by
  induction rounds generalizing history b s with
  | zero => exact counting_ran h s
  | succ rounds ih =>
    by_cases hnone : b.members = []
    · rw [advance_of_isEmpty hnone, hnone]
      exact counting_ran h s
    · rw [endings, if_neg (mt List.isEmpty_iff.mp hnone)]
      cases hround : round b.members s with
      | mk ending result =>
      obtain ⟨members, s'⟩ := result
      cases ending with
      | aborted f => exact counting_aborted h hnone hround
      | completed =>
        rw [advance, if_neg (mt List.isEmpty_iff.mp hnone), hround]
        dsimp only
        cases deliver receiver (completions (members.filter Operation.isFinished)) with
        | mk taken crash =>
        cases crash with
        | some crash => exact counting_ended rfl fun caught => absurd rfl (caught crash)
        | none =>
          have hleft : Counted maxRetries (history ++ [.completed])
              { b with
                members := members.filter fun op => !op.isFinished
                abortedRounds := 0
                rounds := b.rounds + 1 } := by
            intro _
            rw [trailingAborts_concat]
            exact ⟨rfl, Nat.zero_le _⟩
          exact (ih s' hleft).after_completed _ _
      | broken f =>
        rw [advance, if_neg (mt List.isEmpty_iff.mp hnone), hround]
        exact counting_ended rfl fun _ => by rw [batch_failAll]
      | crashed crash =>
        rw [advance, if_neg (mt List.isEmpty_iff.mp hnone), hround]
        exact counting_ended rfl fun caught => absurd rfl (caught crash)

/-! ## Runs -/

/-- An advance to be made: who takes the deliveries, how many rounds, and
over which scans. -/
structure Attempt where
  receiver : Receiver := none
  stride : Nat := 1
  scans : Scans
  deriving Inhabited

/-- What an advance leaves of a batch.  A crash is caught and fails the batch. -/
def attempt (maxRetries : UInt32) (b : Batch) (a : Attempt) : Batch :=
  (Scheduler.guardedAdvance { stride := a.stride, maxRetries := maxRetries } a.receiver
    b a.scans).batch

/-- What advances leave of a batch, made in order. -/
def attemptAll (maxRetries : UInt32) (b : Batch) (attempts : List Attempt) : Batch :=
  attempts.foldl (attempt maxRetries) b

/-- How the rounds of advances end that are made in order. -/
def allEndings (maxRetries : UInt32) : Batch → List Attempt → List RoundEnd
  | _, [] => []
  | b, a :: attempts =>
    endings a.receiver a.stride b.members a.scans ++
      allEndings maxRetries (b.attempt maxRetries a) attempts

theorem Counted.attempt (h : Counted maxRetries history b) (a : Attempt) :
    Counted maxRetries (history ++ endings a.receiver a.stride b.members a.scans)
      (b.attempt maxRetries a) := by
  have hcounting := (counting_advance a.receiver a.stride a.scans h).counted
  unfold Batch.attempt Scheduler.guardedAdvance
  dsimp only
  split
  · exact counted_of_isEmpty (by rw [batch_failAll])
  · rename_i hcaught
    exact hcounting hcaught

theorem Counted.attemptAll (h : Counted maxRetries history b)
    (attempts : List Attempt) :
    Counted maxRetries (history ++ b.allEndings maxRetries attempts)
      (b.attemptAll maxRetries attempts) := by
  induction attempts generalizing history b with
  | nil =>
    rw [allEndings, List.append_nil]
    exact h
  | cons a attempts ih =>
    rw [allEndings, ← List.append_assoc]
    exact ih (h.attempt a)

/-- Whatever advances a new batch has behind it, over scans that fail in any
way: if the last round of a further one is aborted, it counts the aborted rounds
in a row exactly, and these are at most one more than the retries.  Only if they
are as many as a count of 32 bits has values, the advance overflows.  The wait
is the backoff doubled with each further aborted round, six times at most, and
nothing cuts it off. -/
theorem counts_aborts_exactly (c : Config) (word : c.retryBackoffMs ≤ Config.maxCount)
    (fresh : b.abortedRounds = 0) (earlier : List Attempt) (a : Attempt) :
    let b' := b.attemptAll c.maxRoundRetries earlier
    let last := endings a.receiver a.stride b'.members a.scans
    let streak := trailingAborts (b.allEndings c.maxRoundRetries earlier ++ last)
    let left := b'.advance a.receiver c.maxRoundRetries a.stride a.scans
    let sch : Scheduler := ⟨c.stride, c.maxRoundRetries, c.retryBackoffMs⟩
    (∀ f, last.getLast? = some (.aborted f) → streak ≤ c.maxRoundRetries.toNat + 1 ∧
      if streak = 2 ^ 32 then left.ending = .crashed overflowCrash
      else left.batch.abortedRounds.toNat = streak) ∧
      (∀ aborted, sch.retryDelay aborted = c.retryBackoffMs * 2 ^ min (aborted - 1) 6) ∧
      ∀ fewer more, fewer ≤ more → sch.retryDelay fewer ≤ sch.retryDelay more := by
  intro b' last streak left sch
  have hfresh : Counted c.maxRoundRetries [] b := by
    intro _
    rw [fresh]
    exact ⟨rfl, Nat.zero_le _⟩
  have hcounting := counting_advance a.receiver a.stride a.scans
    (hfresh.attemptAll earlier)
  exact ⟨hcounting.aborted, Scheduler.retryDelay_eq word,
    fun _ _ => sch.retryDelay_mono⟩

/-- A graph whose transaction is closed, with a scan of its nodes. -/
def closedScans : Scans where
  graph := (Graph.ofNodes []).close
  cursors := #[{ source := .graph .allNodes 0 }]

/-- An operation over that scan which has tried so many steps. -/
def stalled (steps : Nat) : Operation where
  sequence := 0
  query := "MATCH (n) RETURN n"
  pipeline :=
    { kind := .allNodes, cursor := 0, links := [], counters := { steps := steps } }

/-- A batch of that operation with so many aborted rounds behind it. -/
def stalledBatch (aborted : Nat) : Batch where
  id := "stalled"
  firstSequence := 0
  members := [stalled aborted]
  abortedRounds := UInt32.ofNat aborted

/-- With the configuration that an engine has by default, the fourth aborted round
in a row is counted, and the waits are ten milliseconds, twenty and so on. -/
theorem counts_aborts_exactly_default :
    let b := (stalledBatch 0).attemptAll 3 (List.replicate 3 { scans := closedScans })
    let left := b.advance none 3 1 closedScans
    let sch : Scheduler := ⟨42000, 3, 10⟩
    b.abortedRounds = 3 ∧ left.batch.abortedRounds.toNat = 4 ∧
      left.batch.members.isEmpty = true ∧
      (∀ aborted, sch.retryDelay aborted = 10 * 2 ^ min (aborted - 1) 6) ∧
      sch.retryDelay 3 = 40 := by
  intro b left sch
  obtain ⟨haborted, hdelay, -⟩ :=
    counts_aborts_exactly {} (by decide) (b := stalledBatch 0) rfl
    (List.replicate 3 { scans := closedScans }) { scans := closedScans }
  obtain ⟨-, hcount⟩ := haborted _ rfl
  exact ⟨by decide +kernel, hcount, by decide +kernel, hdelay, hdelay 3⟩

/-! ## The largest number of retries -/

theorem round_stalled (steps : Nat) : round [stalled steps] closedScans =
    (.aborted ⟨.transactionUnavailable, "owning transaction is closed"⟩,
      [stalled (steps + 1)],
      closedScans) := rfl

/-- The batch counts the aborted round as long as the retries allow it. -/
theorem advance_stalled {count : Nat} (h : count < maxRetries.toNat) :
    (stalledBatch count).advance none maxRetries 1 closedScans =
      ⟨.aborted ⟨.transactionUnavailable, "owning transaction is closed"⟩,
        stalledBatch (count + 1),
        closedScans, []⟩ := by
  have hretries := maxRetries.toNat_lt
  have hword : count < UInt32.size := Nat.lt_trans h hretries
  have hcount : (UInt32.ofNat count).toNat = count := UInt32.toNat_ofNat_of_lt' hword
  have hroom : UInt32.ofNat count ≠ maxAborted := by
    intro hfull
    rw [hfull] at hcount
    change 4294967295 = count at hcount
    omega
  have hsucc : UInt32.ofNat count + 1 = UInt32.ofNat (count + 1) :=
    (UInt32.ofNat_add count 1).symm
  have hallowed : ¬ UInt32.ofNat (count + 1) > maxRetries := by
    rw [gt_iff_lt, UInt32.lt_iff_toNat_lt, ← hsucc, toNat_succ_of_ne hroom, hcount]
    omega
  have hmembers : (stalledBatch count).members = [stalled count] := rfl
  have haborted : (stalledBatch count).abortedRounds = UInt32.ofNat count := rfl
  rw [advance, hmembers, round_stalled, haborted, hsucc]
  dsimp only
  rw [if_neg hroom, if_neg hallowed]
  rfl

theorem attemptAll_stalled {count : Nat} (h : count ≤ maxRetries.toNat) :
    (stalledBatch 0).attemptAll maxRetries
      (List.replicate count { scans := closedScans }) =
      stalledBatch count := by
  induction count with
  | zero => rfl
  | succ count ih =>
    have hlast (attempts : List Attempt) (a : Attempt) :
        (stalledBatch 0).attemptAll maxRetries (attempts ++ [a]) =
          ((stalledBatch 0).attemptAll maxRetries attempts).attempt maxRetries a := by
      rw [attemptAll, List.foldl_append]
      rfl
    rw [List.replicate_succ', hlast, ih (Nat.le_of_succ_le h), attempt,
      Scheduler.guardedAdvance]
    dsimp only
    rw [advance_stalled h]

/-- A configuration that allows the largest number of retries is valid, and
after as many aborted rounds the next one overflows its count. -/
theorem aborts_overflow :
    let c : Config := { maxRoundRetries := maxAborted }
    let b := (stalledBatch 0).attemptAll c.maxRoundRetries
      (List.replicate 4294967295 { scans := closedScans })
    c.validate = .ok () ∧ (stalledBatch 0).abortedRounds = 0 ∧
      (b.advance none c.maxRoundRetries 1 closedScans).ending =
        .crashed overflowCrash := by
  intro c b
  have hb : b = stalledBatch 4294967295 := attemptAll_stalled (Nat.le_refl _)
  refine ⟨Config.validate_of_isOk (by decide +kernel), rfl, ?_⟩
  have hmembers : (stalledBatch 4294967295).members = [stalled 4294967295] := rfl
  have hfull : (stalledBatch 4294967295).abortedRounds = maxAborted := rfl
  rw [hb, advance, hmembers, round_stalled, hfull]
  dsimp only
  rw [if_pos rfl]
  rfl

end Batch

end Lockstep
