import Lockstep.Proofs.Batch.Advance
import Lockstep.Proofs.Registry.IndexMap
import Lockstep.Scheduler
set_option autoImplicit false

/-!
# What a turn of the scheduler does

A turn leaves everything as it is, or it runs one guarded advance of one live
batch and puts back what the advance has left of it.  A batch that was left
without members may leave the registry.
-/

namespace Lockstep

namespace Batch

theorem locked_failAll (receiver : Receiver) (b : Batch) (reason : Failure) (s : Scans) :
    (failAll receiver b reason s).batch.locked = b.locked := by
  rw [batch_failAll]

/-- An advance takes no lock. -/
theorem locked_advance (receiver : Receiver) (maxRetries : UInt32) (rounds : Nat)
    (b : Batch) (s : Scans) :
    (advance receiver maxRetries rounds b s).batch.locked = b.locked := by
  induction rounds generalizing b s with
  | zero => rfl
  | succ rounds ih =>
    rw [advance]
    split
    · rfl
    · split
      · dsimp only
        split
        · rfl
        · exact ih _ _
      · split
        · rfl
        · dsimp only
          split
          · exact locked_failAll _ _ _ _
          · rfl
      · exact locked_failAll _ _ _ _
      · rfl

end Batch

theorem Scheduler.locked_guardedAdvance (sch : Scheduler) (receiver : Receiver)
    (b : Batch) (s : Scans) :
    (sch.guardedAdvance receiver b s).batch.locked = b.locked := by
  have hadvance := Batch.locked_advance receiver sch.maxRetries sch.stride b s
  unfold guardedAdvance
  dsimp only
  split
  · exact (Batch.locked_failAll _ _ _ _).trans hadvance
  · exact hadvance

/-! ## Putting a batch back -/

/-- A registry in which the batch of an index was replaced by a batch, whenever
that one may go on, or was removed since that one has no members. -/
structure Registry.Resettled (index : Nat) (b : Batch) (r r' : Registry) : Prop where
  sound : r'.Sound
  kept : r.WellKept → r'.WellKept
  batches : ∃ left, r'.batches = r.before index ++ (left ++ r.behind index) ∧
    (left = [] ∧ b.members = [] ∨ ∃ retryAt, left = [{ b with retryAt := retryAt }])

namespace Registry

variable {r : Registry} {index : Nat} {b : Batch}

theorem resettled_replace (hr : r.Sound) (h : r.get? index = some b) (b' : Batch)
    (retryAt : Option Nat) :
    Resettled index b' r (r.replace index { b' with retryAt := retryAt }) := by
  rw [replace_of_get? h]
  refine ⟨hr.setSlot index _, fun hkept => ?_, [{ b' with retryAt := retryAt }],
    batches_setSlot hr (inWindow_of_get? h) _, .inr ⟨retryAt, rfl⟩⟩
  rw [← replace_of_get? h]
  exact hkept.replace h _

/-- What holds of the other batches and of the batch that was put back holds of
the live batches then. -/
theorem Resettled.forall_others {P : Batch → Prop} {r' : Registry} {b' : Batch}
    (h : r.Resettled index b' r') (others : ∀ b ∈ r.before index ++ r.behind index, P b)
    (new : ∀ retryAt, P { b' with retryAt := retryAt }) : ∀ b ∈ r'.batches, P b := by
  obtain ⟨-, -, left, hbatches, hleft⟩ := h
  obtain ⟨hbefore, hbehind⟩ := List.forall_mem_append.mp others
  rw [hbatches]
  refine List.forall_mem_append.mpr ⟨hbefore, List.forall_mem_append.mpr ⟨?_, hbehind⟩⟩
  rcases hleft with ⟨rfl, -⟩ | ⟨retryAt, rfl⟩
  · exact List.forall_mem_nil _
  · exact List.forall_mem_singleton.mpr (new retryAt)

theorem Resettled.forall_batches {P : Batch → Prop} {r' : Registry} {b' : Batch}
    (h : r.Resettled index b' r') (live : r.get? index = some b)
    (old : ∀ b ∈ r.batches, P b) (new : ∀ retryAt, P { b' with retryAt := retryAt }) :
    ∀ b ∈ r'.batches, P b :=
  h.forall_others (fun other hother => old other (mem_batches_of_others live hother)) new

/-- If a batch without members is always removed, then it is gone, or it is back
with the members that are left. -/
theorem Resettled.cases {r' : Registry} {b' : Batch} (h : r.Resettled index b' r')
    (emptied : b'.members = [] → r'.batches = r.before index ++ r.behind index) :
    r'.batches = r.before index ++ r.behind index ∨
      b'.members ≠ [] ∧
        ∃ retryAt, r'.batches = r.before index ++ { b' with retryAt := retryAt } ::
          r.behind index := by
  obtain ⟨-, -, left, hbatches, hleft⟩ := h
  by_cases hempty : b'.members = []
  · exact .inl (emptied hempty)
  · obtain ⟨-, hnone⟩ | ⟨retryAt, rfl⟩ := hleft
    · exact absurd hnone hempty
    · exact .inr ⟨hempty, retryAt, hbatches⟩

/-- A batch that was put back and then removed leaves the others. -/
theorem batches_removed (hr : r.Sound) (h : r.get? index = some b) {b' removed : Batch}
    {r' : Registry}
    (hremove : (r.replace index b').remove? index = some (removed, r')) :
    r'.Sound ∧ r'.batches = r.before index ++ r.behind index := by
  have hwindow := inWindow_of_get? h
  obtain ⟨r'', hremove', hsound', hbatches'⟩ :=
    exists_remove? (hr.replace index b') (get?_replace_self hr h b')
  rw [hremove] at hremove'
  cases hremove'
  have hbefore : (r.replace index b').before index = r.before index := by
    rw [replace_of_get? h]
    exact before_setSlot hr hwindow _
  have hbehind : (r.replace index b').behind index = r.behind index := by
    rw [replace_of_get? h]
    exact behind_setSlot hr hwindow _
  rw [hbatches', hbefore, hbehind]
  exact ⟨hsound', rfl⟩

theorem resettled_remove (hr : r.Sound) (h : r.get? index = some b) {b' removed : Batch}
    {retryAt : Option Nat} {r' : Registry} (hempty : b'.members = [])
    (hremove : (r.replace index { b' with retryAt := retryAt }).remove? index =
      some (removed, r')) :
    Resettled index b' r r' := by
  obtain ⟨hsound, hbatches⟩ := batches_removed hr h hremove
  exact ⟨hsound, fun hkept => ((hkept.replace h _).remove hremove).2.1, [], hbatches,
    .inl ⟨rfl, hempty⟩⟩

end Registry

/-! ## Turns -/

namespace Scheduler

variable {sch : Scheduler} {receiver : Receiver} {now : Nat} {r : Registry} {s : Scans}
  {m : Metrics}

/-- What a turn can have done. -/
inductive TurnCase (sch : Scheduler) (receiver : Receiver) (r : Registry) (s : Scans) :
    Turn → Prop
  /-- nothing -/
  | idle {turn : Turn} (report : turn.report = none) (crash : turn.crash = none)
      (registry : turn.registry = r) (scans : turn.scans = s)
      (deliveries : turn.deliveries = []) :
      TurnCase sch receiver r s turn
  /-- it has advanced a live batch -/
  | advanced {turn : Turn} (index : Nat) {b : Batch} (live : r.get? index = some b)
      (report : receiver = none → turn.report.isSome = true ∧ turn.crash = none)
      (registry : r.Sound →
        r.Resettled index (sch.guardedAdvance receiver b s).batch turn.registry)
      (emptied : receiver = none → r.Sound →
        (sch.guardedAdvance receiver b s).batch.members = [] →
        turn.registry.batches = r.before index ++ r.behind index)
      (scans : turn.scans = (sch.guardedAdvance receiver b s).scans)
      (deliveries : turn.deliveries = (sch.guardedAdvance receiver b s).deliveries) :
      TurnCase sch receiver r s turn

/-- Settling an advance puts the batch back, perhaps with a wait, or removes it
when it is empty, and hands on the deliveries. -/
theorem settle_cases (sch : Scheduler) (now index before : Nat) (a : Advance)
    (r : Registry) (m : Metrics) :
    (∃ retryAt, let b := { a.batch with retryAt := retryAt }
      (sch.settle now index before a r m).registry = r.replace index b ∧
          (b.members = [] → (r.replace index b).remove? index = none) ∨
        b.members = [] ∧ ∃ removed, (r.replace index b).remove? index =
          some (removed, (sch.settle now index before a r m).registry)) ∧
      (sch.settle now index before a r m).scans = a.scans ∧
      (sch.settle now index before a r m).deliveries = a.deliveries := by
  unfold settle
  -- only the wait hangs on how the advance ended
  cases a.ending
  all_goals
    simp only [Bool.false_eq_true, if_false, if_true]
    split
    · rename_i hempty
      split
      · rename_i removed r' hremove
        exact ⟨⟨_, .inr ⟨List.isEmpty_iff.mp hempty, removed, hremove⟩⟩, rfl, rfl⟩
      · rename_i hnone
        exact ⟨⟨_, .inl ⟨rfl, fun _ => hnone⟩⟩, rfl, rfl⟩
    · rename_i hsome
      exact ⟨⟨_, .inl ⟨rfl, fun hempty => absurd (List.isEmpty_iff.mpr hempty) hsome⟩⟩,
        rfl, rfl⟩

theorem resettled_settle (hr : r.Sound) {index : Nat} {b : Batch}
    (h : r.get? index = some b) (before : Nat) (a : Advance) :
    r.Resettled index a.batch (sch.settle now index before a r m).registry := by
  obtain ⟨⟨retryAt, hregistry⟩, -, -⟩ := sch.settle_cases now index before a r m
  rcases hregistry with ⟨hreplaced, -⟩ | ⟨hempty, removed, hremoved⟩
  · rw [hreplaced]
    exact Registry.resettled_replace hr h a.batch retryAt
  · exact Registry.resettled_remove hr h hempty hremoved

theorem batches_settle_of_isEmpty (hr : r.Sound) {index : Nat} {b : Batch}
    (h : r.get? index = some b) (before : Nat) {a : Advance}
    (hempty : a.batch.members = []) :
    (sch.settle now index before a r m).registry.batches = r.before index ++
      r.behind index := by
  obtain ⟨⟨retryAt, hregistry⟩, -, -⟩ := sch.settle_cases now index before a r m
  rcases hregistry with ⟨-, hnone⟩ | ⟨-, removed, hremoved⟩
  · obtain ⟨_, hremoved, -⟩ :=
      Registry.exists_remove? (hr.replace index _) (Registry.get?_replace_self hr h _)
    rw [hnone hempty] at hremoved
    cases hremoved
  · exact (Registry.batches_removed hr h hremoved).2

/-- A caught crash is the end of it when every delivery is taken. -/
theorem ending_guardedAdvance (sch : Scheduler) (b : Batch) (s : Scans)
    (crash : Crash) :
    (sch.guardedAdvance none b s).ending ≠ .crashed crash := by
  unfold guardedAdvance
  dsimp only
  split
  · simp [Batch.failAll, Batch.deliver]
  · rename_i hnot
    exact hnot crash

/-- Settling an advance always reports it. -/
theorem report_settle (sch : Scheduler) (now index before : Nat) (a : Advance)
    (r : Registry) (m : Metrics) :
    (sch.settle now index before a r m).report.isSome = true ∧
      (sch.settle now index before a r m).crash = none := by
  unfold settle
  cases a.ending
  all_goals
    simp only [Bool.false_eq_true, if_false, if_true]
    split
    · split <;> exact ⟨rfl, rfl⟩
    · exact ⟨rfl, rfl⟩

/-- An attempt to advance the batch of an index. -/
theorem turnCase_advanceIndex (index : Nat) :
    TurnCase sch receiver r s (sch.advanceIndex receiver now index r s m) := by
  unfold advanceIndex
  dsimp only
  split
  · exact .idle rfl rfl rfl rfl rfl
  · rename_i b hlive
    split
    · exact .idle rfl rfl rfl rfl rfl
    · split
      · rename_i crash hcrash
        have hcaught : receiver ≠ none := by
          rintro rfl
          exact ending_guardedAdvance sch b s crash hcrash
        refine .advanced index hlive (fun hnone => absurd hnone hcaught) ?_
          (fun hnone => absurd hnone hcaught) rfl rfl
        intro hr
        exact Registry.resettled_replace hr hlive _
          (sch.guardedAdvance receiver b s).batch.retryAt
      · have hsettled :=
          sch.settle_cases now index b.rounds (sch.guardedAdvance receiver b s) r m
        refine .advanced index hlive (fun _ => report_settle ..) ?_ ?_ hsettled.2.1 hsettled.2.2
        · exact fun hr => resettled_settle hr hlive _ _
        · exact fun _ hr hempty => batches_settle_of_isEmpty hr hlive _ hempty

/-- An attempt to advance some batch. -/
theorem turnCase_advanceNext :
    TurnCase sch receiver r s (sch.advanceNext receiver now r s m) := by
  unfold advanceNext
  generalize r.window = indexes
  induction indexes with
  | nil => exact .idle rfl rfl rfl rfl rfl
  | cons index others ih =>
    unfold advanceFirst
    dsimp only
    split
    · exact turnCase_advanceIndex index
    · exact ih

end Scheduler

end Lockstep
