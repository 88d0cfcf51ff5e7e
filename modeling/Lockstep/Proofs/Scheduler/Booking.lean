import Lockstep.Proofs.Registry.IndexMap
import Lockstep.Scheduler
set_option autoImplicit false

/-!
# What a turn of the scheduler counts

A turn counts the aborted round that it reports and the batch that it takes out
of the registry.  It counts neither queries nor formed batches.
-/

namespace Lockstep

namespace Registry

variable {r r' : Registry} {index : Nat} {b : Batch}

@[simp] theorem live_replace (r : Registry) (index : Nat) (b : Batch) :
    (r.replace index b).live = r.live := by
  unfold replace
  split <;> rfl

theorem counts_insert? (h : r.insert? b = some (index, r')) :
    r'.newest = r.newest + 1 ∧ r'.live = r.live + 1 := by
  unfold insert? at h
  split at h
  · cases h
  · cases h
    exact ⟨rfl, rfl⟩

theorem WellKept.counts_remove? (h : r.WellKept)
    (removed : r.remove? index = some (b, r')) :
    r'.newest = r.newest ∧ r'.live + 1 = r.live := by
  have hfound := (h.remove removed).1
  have hlive : 0 < r.live := by
    rw [h.live]
    exact List.length_pos_of_mem (mem_entries_iff.mpr hfound)
  unfold remove? at removed
  rw [hfound] at removed
  cases removed
  exact ⟨rfl, Nat.sub_add_cancel hlive⟩

end Registry

/-- What a turn has counted: the aborted round that it reports, and the batches
that it took out of the registry. -/
structure Turn.Booked (r : Registry) (m : Metrics) (turn : Turn) : Prop where
  deferred : turn.metrics.queriesDeferred = m.queriesDeferred
  completed : turn.metrics.queriesCompleted = m.queriesCompleted
  failed : turn.metrics.queriesFailed = m.queriesFailed
  evicted : turn.metrics.outcomesEvicted = m.outcomesEvicted
  formed : turn.metrics.batchesFormed = m.batchesFormed
  aborted : turn.metrics.roundsAborted =
    m.roundsAborted + .ofNat (turn.report.toList.countP (·.aborted))
  unreported : turn.crash ≠ none → turn.report = none
  registry : r.WellKept → turn.registry.WellKept ∧ turn.registry.newest = r.newest ∧
    ∃ gone, turn.registry.live + gone = r.live ∧
      turn.metrics.batchesDrained = m.batchesDrained + .ofNat gone

namespace Scheduler

variable {sch : Scheduler} {receiver : Receiver} {now index : Nat} {r : Registry}
  {s : Scans} {m : Metrics}

theorem booked_idle (r : Registry) (s : Scans) (m : Metrics) :
    Turn.Booked r m { report := none, registry := r, scans := s, metrics := m } where
  deferred := rfl
  completed := rfl
  failed := rfl
  evicted := rfl
  formed := rfl
  aborted := (UInt64.add_zero _).symm
  unreported := fun _ => rfl
  registry := fun kept => ⟨kept, rfl, 0, rfl, (UInt64.add_zero _).symm⟩

/-- Settling an advance counts its aborted round, and the batch if it leaves the
registry. -/
theorem booked_settle {b : Batch} (live : r.get? index = some b) (now before : Nat)
    (a : Advance) :
    Turn.Booked r m (sch.settle now index before a r m) := by
  have hput : ∀ b', r.WellKept → (r.replace index b').WellKept ∧
      (r.replace index b').newest = r.newest ∧
      ∃ gone, (r.replace index b').live + gone = r.live ∧
        m.batchesDrained = m.batchesDrained + .ofNat gone := fun b' kept =>
    ⟨kept.replace live b', Registry.newest_replace .., 0, Registry.live_replace ..,
      (UInt64.add_zero _).symm⟩
  have htaken : ∀ {b' removed r'},
    (r.replace index b').remove? index = some (removed, r') →
      r.WellKept → r'.WellKept ∧ r'.newest = r.newest ∧
        ∃ gone, r'.live + gone = r.live ∧
            m.batchesDrained + 1 = m.batchesDrained + .ofNat gone := by
    intro b' removed r' hremoved kept
    have hreplaced := kept.replace live b'
    obtain ⟨hnewest, hlive⟩ := hreplaced.counts_remove? hremoved
    rw [Registry.newest_replace] at hnewest
    rw [Registry.live_replace] at hlive
    exact ⟨(hreplaced.remove hremoved).2.1, hnewest, 1, hlive, rfl⟩
  unfold settle
  -- only the count of aborted rounds hangs on how the advance ended
  cases a.ending
  all_goals
    simp only [Bool.false_eq_true, if_false, if_true]
    split
    · split
      · rename_i hremoved
        exact ⟨rfl, rfl, rfl, rfl, rfl,
          by simp [Metrics.countDrained, Metrics.addRounds, Metrics.countAborted],
          fun crashed => absurd rfl crashed, htaken hremoved⟩
      · exact ⟨rfl, rfl, rfl, rfl, rfl,
          by simp [Metrics.addRounds, Metrics.countAborted], fun crashed =>
          absurd rfl crashed, hput _⟩
    · exact ⟨rfl, rfl, rfl, rfl, rfl, by simp [Metrics.addRounds, Metrics.countAborted],
        fun crashed => absurd rfl crashed, hput _⟩

theorem booked_advanceIndex (index : Nat) :
    Turn.Booked r m (sch.advanceIndex receiver now index r s m) := by
  unfold advanceIndex
  dsimp only
  split
  · exact booked_idle r s m
  · rename_i b hlive
    split
    · exact booked_idle r s m
    · split
      · exact {
          booked_idle r s m with
          unreported := fun _ => rfl
          registry := fun kept =>
            ⟨kept.replace hlive _, Registry.newest_replace .., 0,
              Registry.live_replace .., (UInt64.add_zero _).symm⟩ }
      · exact booked_settle hlive now b.rounds _

theorem booked_advanceNext : Turn.Booked r m (sch.advanceNext receiver now r s m) := by
  unfold advanceNext
  generalize r.window = indexes
  induction indexes with
  | nil => exact booked_idle r s m
  | cons index others ih =>
    unfold advanceFirst
    dsimp only
    split
    · exact booked_advanceIndex index
    · exact ih

end Scheduler

end Lockstep
