import Lockstep.Proofs.Batch.Headway
import Lockstep.Proofs.Scan.Remaining
set_option autoImplicit false

/-!
# No batch lasts forever

A round that completes has taken a row from its scan, or else every member has
found its end.  A round that aborts uses up one of the retries.  Retries come
back when a round completes, but the row does not, so rows and retries together
say how many rounds a batch can still run, whatever its scan or its members do.
-/

namespace Lockstep

/-- No rows are expected of any operation in particular. -/
def Expectation.any : Expectation := fun _ _ _ => True

namespace Batch

variable {id : CursorId} {s s' : Scans} {ops : List Operation}

theorem inStep_any_iff : InStep .any id s ops ↔ ∀ op ∈ ops, op.pipeline.cursor = id :=
  ⟨fun h op hop => (h op hop).1, fun h op hop => ⟨h op hop, trivial⟩⟩

/-! ## Rounds -/

/-- Members that read the end find it, unless the cursor is broken. -/
theorem finished_readPhase (exhausted : s.IsExhausted id)
    (cursor : ∀ op ∈ ops, op.pipeline.cursor = id)
    (completed : (readPhase ops s).1 = .completed) :
    ∀ op ∈ (readPhase ops s).2.1, op.isFinished = true := by
  induction ops with
  | nil => exact List.forall_mem_nil _
  | cons op ops ih =>
    obtain ⟨hid, hrest⟩ := List.forall_mem_cons.mp cursor
    cases hover : op.isOver with
    | true =>
      rw [readPhase_of_isOver hover] at completed ⊢
      exact List.forall_mem_cons.mpr ⟨op.isFinished_stop true, ih hrest completed⟩
    | false =>
      rw [readPhase_of_live hover hid] at completed ⊢
      -- the cache of an exhausted cursor holds its end
      have hread : (s.cursor id).readCached = .error (.failed Cursor.brokenFailure) ∨
          (s.cursor id).readCached = .ok .ended := by
        unfold Scans.IsExhausted Cursor.isExhausted at exhausted
        unfold Cursor.readCached
        split
        · exact .inl rfl
        · split at exhausted
          · rename_i latest
            rw [latest]
            exact .inr rfl
          · cases exhausted
      rcases hread with hbroken | hended
      · obtain ⟨i, hfailed⟩ :
            ∃ i, (op.take true (.error (.failed Cursor.brokenFailure))).1 = .error i :=
          Pipeline.take_failed (p := op.pipeline.setCached true) hover _
        rw [hbroken, show op.take true _ = (.error i, _) from Prod.ext hfailed rfl] at completed
        cases i <;> cases completed
      · have hfinished : ∀ result, (op.take true (.ok .ended)).1 = .ok result →
            (op.take true (.ok .ended)).2.isFinished = true := fun _ =>
          Pipeline.finished_take_ended (p := op.pipeline.setCached true) hover
        rw [hended] at completed ⊢
        generalize op.take true (.ok .ended) = taken at completed hfinished ⊢
        obtain ⟨result, op'⟩ := taken
        cases result with
        | error i => cases i <;> cases completed
        | ok result =>
          exact List.forall_mem_cons.mpr ⟨hfinished result rfl, ih hrest completed⟩

/-- What the pulling part of a round that goes on has done: it took a row, or
all members that were stepped have found their end, and the others will. -/
def TookOrEnded (id : CursorId) (s : Scans) (pulled : Pulled) : Prop :=
  pulled.scans.remaining id < s.remaining id ∨
    (∀ op ∈ pulled.stepped, op.isFinished = true) ∧
      (pulled.waiting = [] ∨ pulled.scans.IsExhausted id)

theorem TookOrEnded.cons {pulled : Pulled} (h : TookOrEnded id s pulled)
    {op : Operation} (finished : op.isFinished = true) :
    TookOrEnded id s { pulled with stepped := op :: pulled.stepped } :=
  h.imp_right fun hended => ⟨List.forall_mem_cons.mpr ⟨finished, hended.1⟩, hended.2⟩

theorem tookOrEnded_pullPhase (hopen : s.IsOpen id) {before : Nat}
    (pulls : (s.cursor id).pulls = before)
    (cursor : ∀ op ∈ ops, op.pipeline.cursor = id)
    (going : (pullPhase id before ops s).ending = none) :
    TookOrEnded id s (pullPhase id before ops s) := by
  induction ops with
  | nil => exact .inr ⟨List.forall_mem_nil _, .inl rfl⟩
  | cons op ops ih =>
    obtain ⟨hid, hrest⟩ := List.forall_mem_cons.mp cursor
    cases hover : op.isOver with
    | true =>
      rw [pullPhase_of_isOver hover] at going ⊢
      split at going
      · rename_i hstill
        rw [if_pos hstill]
        exact (ih hrest going).cons (op.isFinished_stop false)
      · rename_i hmoved
        rw [if_neg hmoved]
        -- nothing was pulled in this round, so the scan had been found
        -- exhausted before it
        have hended : s.IsExhausted id := by
          unfold Scans.IsExhausted
          simpa [scanMoved, pulls] using hmoved
        exact .inr ⟨List.forall_mem_singleton.mpr (op.isFinished_stop false), .inr hended⟩
    | false =>
      have hless := (Scans.remaining_pull hopen).2
      have hasks : op.answer? = none := by
        refine (Pipeline.answer?_of_not_isOver hover).resolve_right ?_
        rintro ⟨i, hanswer⟩
        obtain ⟨htake, hscans⟩ := Operation.step_of_answer hanswer false
        rw [pullPhase_of_live hover hid (hscans s), htake] at going
        cases i <;> cases going
      have hscans := op.scansAfter_of_asks hasks s
      rw [hid] at hscans
      rw [pullPhase_of_live hover hid hscans] at going ⊢
      rcases Scans.pull_cases hopen with ⟨row, hpull⟩ | ⟨hpull, hexhausted⟩ | ⟨i, hpull⟩
      · have hmoved := scanMoved_pull hopen pulls hpull
        have hrow := hless row hpull
        rw [hpull, hmoved] at going ⊢
        generalize op.take false (.ok (.row row)) = taken at going ⊢
        obtain ⟨result, op'⟩ := taken
        cases result with
        | error i => cases i <;> cases going
        | ok result =>
          simp only [Bool.true_eq_false, and_false, if_false]
          exact .inl hrow
      · have hmoved := scanMoved_pull hopen pulls hpull
        have hfinished : ∀ result, (op.take false (.ok .ended)).1 = .ok result →
            (op.take false (.ok .ended)).2.isFinished = true := fun _ =>
          Pipeline.finished_take_ended (p := op.pipeline.setCached false) hover
        rw [hpull, hmoved] at going ⊢
        generalize op.take false (.ok .ended) = taken at going hfinished ⊢
        obtain ⟨result, op'⟩ := taken
        cases result with
        | error i => cases i <;> cases going
        | ok result =>
          simp only [Bool.true_eq_false, and_false, if_false]
          exact .inr ⟨List.forall_mem_singleton.mpr (hfinished result rfl),
            .inr hexhausted⟩
      · rw [hpull, Operation.take_failed_of_asks hasks] at going
        cases i <;> cases going

/-- A round that completes has taken a row, or every member has found its end. -/
theorem round_completed (hopen : s.IsOpen id)
    (cursor : ∀ op ∈ ops, op.pipeline.cursor = id)
    (completed : (round ops s).1 = .completed) :
    (round ops s).2.2.remaining id < s.remaining id ∨
      ∀ op ∈ (round ops s).2.1, op.isFinished = true := by
  cases ops with
  | nil => exact .inr (List.forall_mem_nil _)
  | cons first others =>
    have hany : InStep .any id s (first :: others) := inStep_any_iff.mpr cursor
    have htook := tookOrEnded_pullPhase hopen rfl cursor
    have hmembers := pullEnd_pullPhase hopen rfl hany
    rw [round_cons (cursor first List.mem_cons_self)] at completed ⊢
    generalize pullPhase id (s.cursor id).pulls (first :: others) s = pulled
      at completed htook hmembers ⊢
    obtain ⟨ending, stepped, waiting, s'⟩ := pulled
    cases ending with
    | some ending =>
      dsimp only at completed
      subst completed
      cases hmembers with
      | lost _ _ given => exact absurd rfl given.1
    | none =>
      dsimp only at completed ⊢
      rw [scans_readPhase]
      refine (htook rfl).imp_right fun ⟨hstepped, hwaiting⟩ => ?_
      refine List.forall_mem_append.mpr ⟨hstepped, ?_⟩
      rcases hwaiting with hnone | hexhausted
      · dsimp only at hnone
        subst hnone
        exact List.forall_mem_nil _
      · cases hmembers with
        | moved _ _ behind _ =>
          exact finished_readPhase hexhausted (inStep_any_iff.mp behind) completed

/-- Pulling leaves no more rows than there were. -/
theorem remaining_pullPhase (hopen : s.IsOpen id) (before : Nat)
    (cursor : ∀ op ∈ ops, op.pipeline.cursor = id) :
    (pullPhase id before ops s).scans.remaining id ≤ s.remaining id := by
  induction ops generalizing s with
  | nil => exact Nat.le_refl _
  | cons op ops ih =>
    obtain ⟨hid, hrest⟩ := List.forall_mem_cons.mp cursor
    cases hover : op.isOver with
    | true =>
      rw [pullPhase_of_isOver hover]
      split
      · exact ih hopen hrest
      · exact Nat.le_refl _
    | false =>
      have hle : (op.scansAfter false s).remaining id ≤ s.remaining id := by
        rcases Pipeline.answer?_of_not_isOver hover with hasks | ⟨i, hanswer⟩
        · rw [op.scansAfter_of_asks hasks, hid]
          exact (Scans.remaining_pull hopen).1
        · exact Nat.le_of_eq
            (congrArg (·.remaining id) ((Operation.step_of_answer hanswer false).2 s))
      have hmore := ih ((hid ▸ op.onlyMoves_scansAfter s).isOpen hopen) hrest
      rw [pullPhase_of_live hover hid rfl]
      split
      · exact hle
      · exact hle
      · split
        · exact Nat.le_trans hmore hle
        · exact hle

theorem remaining_round (hopen : s.IsOpen id)
    (cursor : ∀ op ∈ ops, op.pipeline.cursor = id) :
    (round ops s).2.2.remaining id ≤ s.remaining id := by
  cases ops with
  | nil => exact Nat.le_refl _
  | cons first others =>
    have hle := remaining_pullPhase hopen (s.cursor id).pulls cursor
    rw [round_cons (cursor first List.mem_cons_self)]
    dsimp only
    split
    · exact hle
    · rw [scans_readPhase]
      exact hle

/-! ## Advances -/

/-- How many rounds a batch can still run at most: for each row that is left one
that takes it and those that abort before, and as many for the end, less those
that aborted already. -/
def lifetime (maxRetries : UInt32) (s : Scans) (b : Batch) : Nat :=
  s.remaining b.cursor * (maxRetries.toNat + 2) +
    (maxRetries.toNat + 1 - b.abortedRounds.toNat) + 1

theorem cursor_eq {b : Batch} (some : b.members ≠ [])
    (cursor : ∀ op ∈ b.members, op.pipeline.cursor = id) :
    b.cursor = id := by
  unfold Batch.cursor
  split
  · rename_i hnone
    exact absurd hnone some
  · rename_i op others hmembers
    exact cursor op (hmembers ▸ List.mem_cons_self)

theorem lifetime_of_onlyMoves (maxRetries : UInt32) {b : Batch}
    (moves : Scans.OnlyMoves id s s') (some : b.members ≠ [])
    (apart : ∀ op ∈ b.members, op.pipeline.cursor ≠ id) :
    b.lifetime maxRetries s' = b.lifetime maxRetries s := by
  obtain ⟨op, others, hmembers⟩ := List.exists_cons_of_ne_nil some
  unfold lifetime cursor
  rw [hmembers]
  dsimp only
  rw [moves.remaining (apart op (hmembers ▸ List.mem_cons_self))]

theorem InStep.left {ex : Expectation} {members : List Operation}
    (h : InStep ex id s members) :
    InStep ex id s (members.filter fun op => !op.isFinished) :=
  fun op hop => h op (List.mem_filter.mp hop).1

theorem toNat_succ_of_ne {aborted : UInt32} (h : aborted ≠ maxAborted) :
    (aborted + 1).toNat = aborted.toNat + 1 := by
  have hlt := aborted.toNat_lt
  have hne : aborted.toNat ≠ 0xFFFFFFFF := fun heq => h (UInt32.toNat_inj.mp heq)
  rw [UInt32.toNat_add]
  exact Nat.mod_eq_of_lt (by simp only [UInt32.reduceToNat]; omega)

/-- An advance that leaves members has taken rounds off the lifetime of its batch. -/
theorem lifetime_advance (maxRetries : UInt32) (rounds : Nat) {b : Batch}
    (hopen : s.IsOpen id) (cursor : ∀ op ∈ b.members, op.pipeline.cursor = id)
    (caught : ∀ crash, (b.advance none maxRetries rounds s).ending ≠ .crashed crash)
    (some : (b.advance none maxRetries rounds s).batch.members ≠ []) :
    (b.advance none maxRetries rounds s).batch.lifetime maxRetries
      (b.advance none maxRetries rounds s).scans + min rounds 1 ≤
        b.lifetime maxRetries s := by
  induction rounds generalizing b s with
  | zero => exact Nat.le_refl _
  | succ rounds ih =>
    rw [advance] at caught some ⊢
    by_cases hnone : b.members = []
    · rw [hnone] at some
      exact absurd hnone some
    · rw [if_neg (mt List.isEmpty_iff.mp hnone)] at caught some ⊢
      have hcompleted := round_completed hopen cursor
      have hle := remaining_round hopen cursor
      have hany : InStep .any id s b.members := inStep_any_iff.mpr cursor
      have hround := roundResult_round hopen hany
      have hid := cursor_eq hnone cursor
      generalize round b.members s = result at caught some hcompleted hle hround ⊢
      cases hround with
      | @completed members s' moves kept =>
        have hcursor := inStep_any_iff.mp kept.left
        have hmore := ih (moves.isOpen hopen) hcursor
          (fun crash hcrash =>
            caught crash (Advance.ending_after_eq_crashed.mpr hcrash)) some
        have hleft : (members.filter fun op => !op.isFinished) ≠ [] := by
          intro hempty
          dsimp only [deliver] at some
          rw [advance_of_isEmpty hempty] at some
          exact some hempty
        obtain ⟨op, hop⟩ := List.exists_mem_of_ne_nil _ hleft
        obtain ⟨hmember, hunfinished⟩ := List.mem_filter.mp hop
        -- a member is left, so the round has taken a row
        have hless : s'.remaining id < s.remaining id := by
          refine (hcompleted rfl).resolve_right fun hall => ?_
          rw [hall op hmember] at hunfinished
          cases hunfinished
        have hrows := Nat.mul_le_mul_right (maxRetries.toNat + 2) hless
        rw [Nat.succ_mul] at hrows
        refine Nat.le_trans
          (Nat.add_le_add (Nat.le_of_add_right_le hmore) (Nat.min_le_right _ 1)) ?_
        unfold lifetime
        rw [hid, cursor_eq hleft hcursor]
        have hnone : (0 : UInt32).toNat = 0 := rfl
        dsimp only
        rw [hnone]
        omega
      | @aborted f members s' moves kept =>
        dsimp only at caught some ⊢
        split at some
        · rename_i hoverflow
          rw [if_pos hoverflow] at caught
          exact absurd rfl (caught overflowCrash)
        · rename_i hroom
          rw [if_neg hroom] at caught ⊢
          split at some
          · exact absurd rfl some
          · rename_i hspent
            rw [if_neg hspent]
            have hcount : (b.abortedRounds + 1).toNat = b.abortedRounds.toNat + 1 :=
              toNat_succ_of_ne hroom
            have hspent' : ¬ maxRetries.toNat < (b.abortedRounds + 1).toNat := hspent
            have hrows := Nat.mul_le_mul_right (maxRetries.toNat + 2) hle
            unfold lifetime
            rw [hid, cursor_eq some (inStep_any_iff.mp kept)]
            dsimp only at hrows ⊢
            omega
      | @lost ending members s' moves truthful given =>
        cases ending with
        | completed => exact absurd rfl given.1
        | aborted f => exact absurd rfl (given.2 f)
        | broken f => exact absurd rfl some
        | crashed crash => exact absurd rfl (caught crash)

end Batch

theorem Scheduler.lifetime_guardedAdvance {sch : Scheduler} {id : CursorId} {b : Batch}
    {s : Scans} (hopen : s.IsOpen id)
    (cursor : ∀ op ∈ b.members, op.pipeline.cursor = id)
    (some : (sch.guardedAdvance none b s).batch.members ≠ []) :
    (sch.guardedAdvance none b s).batch.lifetime sch.maxRetries
      (sch.guardedAdvance none b s).scans +
      min sch.stride 1 ≤ b.lifetime sch.maxRetries s := by
  have hless := Batch.lifetime_advance sch.maxRetries sch.stride hopen cursor
  unfold guardedAdvance at some ⊢
  dsimp only at some ⊢
  split at some
  · exact absurd rfl some
  · rename_i hcaught
    exact hless hcaught some

end Lockstep
