import Lockstep.Proofs.Batch.Headway
import Lockstep.Proofs.Scheduler.Turn
set_option autoImplicit false

/-!
# The oldest batch goes first

The gate is always open for the oldest batch.  If nobody holds it and it does
not wait for a retry, it is the one that the next turn advances, and the one
that the dispatcher hands to a worker.
-/

namespace Lockstep

namespace Registry

variable {r : Registry} {b : Batch} {others : List Batch}

/-- The first of the live batches has the first index of the window. -/
theorem WellKept.oldest (h : r.WellKept) (live : r.batches = b :: others) :
    r.get? r.oldest = some b ∧ r.before r.oldest = [] ∧ r.behind r.oldest = others ∧
      ∃ rest, r.window = r.oldest :: rest := by
  have hbefore : r.before r.oldest = [] := by
    unfold before
    rw [Nat.sub_self]
    rfl
  rcases h.compacted with hempty | hsome
  · rw [batches_eq_span, hempty, Nat.sub_self] at live
    cases live
  · obtain ⟨b', hget⟩ := Option.isSome_iff_exists.mp hsome
    have hsplit := batches_of_get? hget
    rw [hbefore, live] at hsplit
    obtain ⟨rfl, rfl⟩ := List.cons.inj hsplit
    obtain ⟨-, hlt⟩ := inWindow_iff.mp (inWindow_of_get? hget)
    obtain ⟨count, hcount⟩ := Nat.exists_eq_add_of_lt hlt
    refine ⟨hget, hbefore, rfl, (List.range count).map (r.oldest + 1 + ·), ?_⟩
    have hspan : r.newest - r.oldest = count + 1 := by omega
    unfold window
    rw [hspan, List.range_succ_eq_map, List.map_cons, List.map_map]
    refine congrArg₂ List.cons rfl (List.map_congr_left fun offset _ => ?_)
    exact (Nat.add_right_comm r.oldest offset 1)

theorem WellKept.window_of_batches (h : r.WellKept) (none : r.batches = []) :
    r.window = [] := by
  rcases h.compacted with hempty | hsome
  · unfold window
    rw [hempty, Nat.sub_self]
    rfl
  · obtain ⟨b, hget⟩ := Option.isSome_iff_exists.mp hsome
    rw [batches_of_get? hget] at none
    exact absurd none (by simp)

theorem WellKept.isFull_of_batches (h : r.WellKept) (none : r.batches = []) :
    r.isFull = false := by
  have hspan := congrArg List.length (h.window_of_batches none)
  unfold window at hspan
  rw [List.length_map, List.length_range] at hspan
  unfold isFull
  rw [hspan]
  exact decide_eq_false (Nat.not_le.mpr h.sound.capacity)

end Registry

theorem Batch.retryDue_of_none {b : Batch} (h : b.retryAt = none) (now : Nat) :
    b.retryDue now = true := by
  unfold retryDue
  rw [h]

/-- What an advance has left of its batch: nothing, or the batch with the
members that are left. -/
def Advance.left (a : Advance) : List Batch :=
  if a.batch.members = [] then [] else [a.batch]

namespace Scheduler

variable {sch : Scheduler} {now : Nat} {r : Registry} {s : Scans} {m : Metrics}
  {b : Batch}
  {others : List Batch} {id : CursorId}

/-- What is left behind by an advance that ran is in place of the batch, if any
members are left. -/
theorem batches_settle_of_ran (hr : r.Sound) {index before : Nat}
    (h : r.get? index = some b) {a : Advance} {completedAny : Bool}
    (ending : a.ending = .ran completedAny) :
    (sch.settle now index before a r m).registry.batches =
      r.before index ++ a.left ++ r.behind index := by
  unfold Advance.left
  split
  · rename_i hempty
    rw [batches_settle_of_isEmpty hr h before hempty, List.append_nil]
  · rename_i hsome
    have hregistry : (sch.settle now index before a r m).registry =
        r.replace index a.batch := by
      unfold settle
      simp only [ending, Bool.false_eq_true, if_false, List.isEmpty_iff, hsome]
    rw [hregistry, Registry.replace_of_get? h,
      Registry.batches_setSlot hr (Registry.inWindow_of_get? h), List.append_assoc]
    rfl

/-- The oldest batch is advanced if nobody holds it and it does not wait for a retry. -/
theorem advanceIndex_oldest (kept : r.WellKept) (live : r.batches = b :: others)
    (unlocked : b.locked = false) (due : b.retryDue now = true) :
    sch.advanceIndex none now r.oldest r s m =
      sch.settle now r.oldest b.rounds (sch.guardedAdvance none b s) r m := by
  obtain ⟨hget, -⟩ := kept.oldest live
  unfold advanceIndex
  dsimp only
  rw [hget]
  dsimp only
  rw [due, unlocked, sch.isEligible_oldest]
  simp only [Bool.not_true, Bool.or_self, Bool.false_eq_true, if_false]
  split
  · rename_i crash hcrash
    exact absurd hcrash (ending_guardedAdvance sch b s crash)
  · rfl

theorem report_advanceNext (kept : r.WellKept) (live : r.batches = b :: others)
    (unlocked : b.locked = false) (due : b.retryDue now = true) :
    (sch.advanceNext none now r s m).report.isSome = true := by
  obtain ⟨-, -, -, rest, hwindow⟩ := kept.oldest live
  have hreport :=
    (sch.report_settle now r.oldest b.rounds (sch.guardedAdvance none b s) r m).1
  rw [← advanceIndex_oldest kept live unlocked due] at hreport
  unfold advanceNext
  rw [hwindow, advanceFirst]
  simp only [hreport, Bool.true_or, if_true]

/-- A turn in which the oldest batch was advanced while nothing disturbed it. -/
structure Onward (sch : Scheduler) (b : Batch) (others : List Batch) (s : Scans)
    (turn : Turn) : Prop where
  report : turn.report.isSome = true
  crash : turn.crash = none
  scans : turn.scans = (b.advance none sch.maxRetries sch.stride s).scans
  deliveries : turn.deliveries = (b.advance none sch.maxRetries sch.stride s).deliveries
  batches : turn.registry.batches = (b.advance none sch.maxRetries sch.stride s).left ++ others

section

variable (kept : r.WellKept) (live : r.batches = b :: others)
  (unlocked : b.locked = false)
  (due : b.retryAt = none)

include kept live unlocked due

theorem onward_advanceIndex (runs : Batch.Runs id s b.members) :
    Onward sch b others s (sch.advanceIndex none now r.oldest r s m) := by
  obtain ⟨hget, hbefore, hbehind, -⟩ := kept.oldest live
  obtain ⟨_, hending⟩ := (Batch.headway_advance runs sch.maxRetries sch.stride).ending
  rw [advanceIndex_oldest kept live unlocked (Batch.retryDue_of_none due now),
    Batch.guardedAdvance_of_runs runs]
  have hreport := sch.report_settle now r.oldest b.rounds
    (b.advance none sch.maxRetries sch.stride s) r m
  obtain ⟨-, hscans, hdeliveries⟩ :=
    sch.settle_cases now r.oldest b.rounds
      (b.advance none sch.maxRetries sch.stride s) r m
  refine ⟨hreport.1, hreport.2, hscans, hdeliveries, ?_⟩
  rw [batches_settle_of_ran kept.sound hget hending, hbefore, hbehind, List.nil_append]

/-- The next turn advances the oldest batch. -/
theorem onward_advanceNext (runs : Batch.Runs id s b.members) :
    Onward sch b others s (sch.advanceNext none now r s m) := by
  have honward : Onward sch b others s (sch.advanceIndex none now r.oldest r s m) :=
    onward_advanceIndex kept live unlocked due runs
  obtain ⟨-, -, -, rest, hwindow⟩ := kept.oldest live
  unfold advanceNext
  rw [hwindow, advanceFirst]
  simp only [honward.report, Bool.true_or, if_true]
  exact honward

/-- The dispatcher picks the oldest batch. -/
theorem nextDispatchable_eq : sch.nextDispatchable now r = some r.oldest := by
  obtain ⟨hget, -, -, rest, hwindow⟩ := kept.oldest live
  have hdispatchable : sch.isDispatchable now r r.oldest = true := by
    unfold isDispatchable Batch.retryDue
    rw [hget, Option.any_some, due, unlocked, sch.isEligible_oldest]
    rfl
  unfold nextDispatchable
  rw [hwindow, List.find?_cons_of_pos hdispatchable]

end

end Scheduler

end Lockstep
