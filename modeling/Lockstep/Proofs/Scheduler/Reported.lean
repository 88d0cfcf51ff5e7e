import Lockstep.Proofs.Batch.Handover
set_option autoImplicit false

/-!
# What a report tells of completions

The report of an advance tells that operations were handed over, by their
completion or by the failure of their batch, unless the advance was stopped by
an aborted round.  Such a report never tells it, although rounds before that one
may have completed operations.  It tells of these rounds, if there were any.
-/

namespace Lockstep.Scheduler

variable {sch : Scheduler} {receiver : Receiver} {now index : Nat} {r : Registry}
  {s : Scans} {m : Metrics}

/-- An advance that ran tells whether it has handed anyone over.  Whoever an
advance fails has been handed over, and whoever it has handed over before an
aborted round had completed in a round that was counted. -/
theorem deliveries_guardedAdvance (sch : Scheduler) (receiver : Receiver) (b : Batch)
    (s : Scans) :
    let a := sch.guardedAdvance receiver b s
    (∀ completedAny, a.ending = .ran completedAny →
      (completedAny = true ↔ a.deliveries ≠ [])) ∧
      (∀ members reason, a.ending = .failed members reason → a.deliveries ≠ []) ∧
      ∀ reason, a.ending = .aborted reason → a.deliveries ≠ [] →
      b.rounds < a.batch.rounds := by
  intro a
  have hguarded : a =
      (b.advance receiver sch.maxRetries sch.stride s).guarded receiver :=
    sch.guardedAdvance_eq receiver b s
  have hcase := Batch.advanceCase_advance receiver sch.maxRetries sch.stride b s
  generalize b.advance receiver sch.maxRetries sch.stride s = advanced at hguarded hcase
  rw [hguarded]
  cases hcase with
  | ran earlier =>
    refine ⟨fun completedAny hran => ?_, ?_, ?_⟩
    · cases hran
      cases earlier <;> simp [Advance.guarded, Batch.completions]
    · rintro _ _ ⟨⟩
    · rintro _ ⟨⟩
  | aborted earlier counted =>
    refine ⟨?_, ?_, fun _ _ hsome => counted ?_⟩
    · rintro _ ⟨⟩
    · rintro _ _ ⟨⟩
    · rintro rfl
      exact hsome rfl
  | failed earlier ended someone everyone =>
    refine ⟨?_, fun _ _ _ hnone => someone ?_, ?_⟩
    · rintro _ ⟨⟩
    · exact List.map_eq_nil_iff.mp (List.append_eq_nil_iff.mp hnone).2
    · rintro _ ⟨⟩
  | @crashed left s' crash deliveries cause =>
    have hfail := left.failAll_eq receiver (crashFailure crash) s'
    unfold Advance.guarded Advance.behind
    dsimp only
    rcases hfail with hall | ⟨again, first, -, hagain⟩
    · rw [hall]
      refine ⟨?_, fun _ _ _ hnone => ?_, ?_⟩
      · rintro _ ⟨⟩
      · obtain ⟨hbefore, hfailed⟩ := List.append_eq_nil_iff.mp hnone
        exact cause (List.map_eq_nil_iff.mp hfailed) hbefore
      · rintro _ ⟨⟩
    · rw [hagain]
      refine ⟨?_, ?_, ?_⟩
      · rintro _ ⟨⟩
      · rintro _ _ ⟨⟩
      · rintro _ ⟨⟩

/-- The report of an advance that was settled. -/
theorem report_settle_eq (sch : Scheduler) (now index before : Nat) (a : Advance)
    (r : Registry) (m : Metrics) :
    ∃ completedAny aborted, (sch.settle now index before a r m).report =
        some ⟨index, a.batch.rounds - before, completedAny, a.batch.members.isEmpty, aborted⟩ ∧
      match a.ending with
      | .ran told => completedAny = told ∧ aborted = false
      | .aborted _ => completedAny = false ∧ aborted = true
      | _ => completedAny = true ∧ aborted = false := by
  unfold settle
  cases a.ending
  all_goals
    simp only [Bool.false_eq_true, if_false, if_true]
    split
    · split <;> exact ⟨_, _, rfl, rfl, rfl⟩
    · exact ⟨_, _, rfl, rfl, rfl⟩

/-- A turn reports the guarded advance of the batch that it found. -/
theorem exists_of_report {report : Report}
    (h : (sch.advanceIndex receiver now index r s m).report = some report) :
    ∃ b, r.get? index = some b ∧
      (∀ crash, (sch.guardedAdvance receiver b s).ending ≠ .crashed crash) ∧
      sch.advanceIndex receiver now index r s m =
        sch.settle now index b.rounds (sch.guardedAdvance receiver b s) r m := by
  unfold advanceIndex at h ⊢
  dsimp only at h ⊢
  split at h
  · cases h
  · rename_i b hlive
    split at h
    · cases h
    · rename_i hfree
      split at h
      · cases h
      · rename_i hended
        exact ⟨b, hlive, hended, if_neg hfree⟩

/-- Whatever the batch, the stride, the retries and the sources: a report tells
that something completed exactly if operations were handed over in that turn and
no round was aborted.  So it tells truly whether any were handed over, unless a
round was aborted behind them, and then it tells of rounds before that one. -/
theorem completedAny_iff_delivered {report : Report}
    (h : (sch.advanceIndex receiver now index r s m).report = some report) :
    let turn := sch.advanceIndex receiver now index r s m
    (report.completedAny = true ↔ turn.deliveries ≠ [] ∧ report.aborted = false) ∧
      ((report.completedAny = true ↔ turn.deliveries ≠ []) ↔
        ¬ (turn.deliveries ≠ [] ∧ report.aborted = true)) ∧
      (turn.deliveries ≠ [] ∧ report.aborted = true → 0 < report.rounds) := by
  intro turn
  obtain ⟨b, -, hended, hturn⟩ := exists_of_report h
  obtain ⟨hran, hfailed, haborted⟩ := sch.deliveries_guardedAdvance receiver b s
  have hdeliveries : turn.deliveries = (sch.guardedAdvance receiver b s).deliveries :=
    (congrArg Turn.deliveries hturn).trans (sch.settle_cases ..).2.2
  obtain ⟨completedAny, aborted, hreport, hends⟩ :=
    sch.report_settle_eq now index b.rounds (sch.guardedAdvance receiver b s) r m
  rw [hturn, hreport] at h
  cases h
  rw [hdeliveries]
  generalize sch.guardedAdvance receiver b s = a at hran hfailed haborted hended hends
  cases hending : a.ending with
  | crashed crash => exact absurd hending (hended crash)
  | ran told =>
    rw [hending] at hends
    obtain ⟨htold, rfl⟩ := hends
    simp [htold, hran told hending]
  | aborted reason =>
    rw [hending] at hends
    obtain ⟨rfl, rfl⟩ := hends
    refine ⟨by simp, by simp, fun hboth => ?_⟩
    exact Nat.sub_pos_of_lt (haborted reason hending hboth.1)
  | failed members reason =>
    rw [hending] at hends
    obtain ⟨rfl, rfl⟩ := hends
    simp [hfailed members reason hending]

/-- A scan that gives a row and then cannot be read for once. -/
def closedBehindRow : Scans where
  graph := default
  cursors := Array.replicate 2 {
    source :=
      .script
        [.row (.nat 0), .interruption (.failed ⟨.transactionUnavailable, "closed"⟩)] }

/-- An operation that wants no row and one that wants all, in the only
batch of a registry. -/
def lonePair : Registry :=
  (((Registry.ofCapacity 1).insert? Batch.cutAndAll).map Prod.snd).getD default

/-- Without retries, an advance of one round completes the operation that wants
no row, and the next advance fails the other one.  Both reports tell that
something was handed over. -/
theorem completedAny_iff_delivered_pair :
    let first := advanceIndex ⟨1, 0, 0⟩ none 0 0 lonePair closedBehindRow {}
    let second :=
      advanceIndex ⟨2, 0, 0⟩ none 0 0 first.registry first.scans first.metrics
    ∃ report report', first.report = some report ∧ second.report = some report' ∧
      (report.completedAny = true ↔ first.deliveries ≠ []) ∧
      (report'.completedAny = true ↔ second.deliveries ≠ []) := by
  intro first second
  have hfirst : first.report = some ⟨0, 1, true, false, false⟩ := by decide +kernel
  have hsecond : second.report = some ⟨0, 0, true, true, false⟩ := by decide +kernel
  have htold := (completedAny_iff_delivered hfirst).1
  have htold' := (completedAny_iff_delivered hsecond).1
  exact ⟨_, _, hfirst, hsecond, htold.trans (and_iff_left rfl),
    htold'.trans (and_iff_left rfl)⟩

/-- With retries, the report of an advance of two rounds hides that the first of
them has completed an operation. -/
theorem aborted_hides_completion :
    let turn := advanceIndex ⟨2, 3, 0⟩ none 0 0 lonePair closedBehindRow {}
    turn.report = some ⟨0, 1, false, false, true⟩ ∧
      turn.deliveries.map (fun d => (d.operation.sequence, d.status)) =
        [(0, .completed)] := by
  decide +kernel

end Lockstep.Scheduler
