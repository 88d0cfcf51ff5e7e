import Lockstep.Proofs.Scheduler.Fleet
import Lockstep.Proofs.Scheduler.Oldest
import Lockstep.Proofs.Scheduler.Reported
set_option autoImplicit false

/-!
# Two ways to choose a batch

A worker that scans the registry tries each batch in turn and advances the first
that lets it.  The dispatcher only looks at the batches and names the first that
would.  Both pass over the same batches, so they choose the same one: the least
index whose batch is live, does not wait for a retry and is far enough behind.
Of a registry with batches the oldest index is that of one, and nothing but a
retry can hold it up.
-/

namespace Lockstep

namespace Scheduler

variable {sch : Scheduler} {receiver : Receiver} {now index : Nat} {r : Registry}
  {s : Scans} {m : Metrics}

/-! ## The choice -/

/-- The index has a live batch whose wait is over and whose gate is open. -/
def MayAdvance (sch : Scheduler) (now : Nat) (r : Registry) (index : Nat) : Prop :=
  ∃ b, r.get? index = some b ∧ b.retryDue now = true ∧ sch.isEligible r index b = true

/-- If nobody holds a batch, those that may advance can be handed to a worker. -/
theorem isDispatchable_iff (unlocked : ∀ b ∈ r.batches, b.locked = false) :
    sch.isDispatchable now r index = true ↔ sch.MayAdvance now r index := by
  unfold isDispatchable MayAdvance
  cases hlive : r.get? index with
  | none => simp
  | some b => simp [unlocked b (Registry.mem_batches_of_get? hlive)]

theorem inWindow_of_isDispatchable (h : sch.isDispatchable now r index = true) :
    index ∈ r.window := by
  obtain ⟨b, hlive, -⟩ := Option.any_eq_true .. |>.mp h
  exact Registry.mem_window_iff.mpr (Registry.inWindow_of_get? hlive)

/-- The dispatcher names the least index whose batch can be handed over. -/
theorem nextDispatchable_eq_some_iff :
    sch.nextDispatchable now r = some index ↔
      sch.isDispatchable now r index = true ∧ ∀ other < index,
        sch.isDispatchable now r other = false := by
  have hleast : ∀ first, sch.nextDispatchable now r = some first →
      sch.isDispatchable now r first = true ∧ ∀ other < first,
          sch.isDispatchable now r other = false := by
    intro first hfirst
    obtain ⟨hdispatchable, before, behind, hwindow, hbefore⟩ :=
      List.find?_eq_some_iff_append.mp hfirst
    refine ⟨hdispatchable, fun other hless => Bool.eq_false_iff.mpr fun hother => ?_⟩
    have hordered := r.pairwise_window
    have hinside := inWindow_of_isDispatchable hother
    rw [hwindow] at hordered hinside
    rcases List.mem_append.mp hinside with hpassed | hrest
    · simpa [hother] using hbefore other hpassed
    · obtain ⟨-, hordered, -⟩ := List.pairwise_append.mp hordered
      rcases List.mem_cons.mp hrest with rfl | hbehind
      · exact Nat.lt_irrefl _ hless
      · exact Nat.lt_asymm hless ((List.pairwise_cons.mp hordered).1 other hbehind)
  refine ⟨hleast index, fun ⟨hindex, hbefore⟩ => ?_⟩
  cases hfound : sch.nextDispatchable now r with
  | none =>
    exact absurd hindex
      (List.find?_eq_none.mp hfound index (inWindow_of_isDispatchable hindex))
  | some first =>
    obtain ⟨hfirst, hleast⟩ := hleast first hfound
    rcases Nat.lt_trichotomy first index with hless | rfl | hgreater
    · rw [hbefore first hless] at hfirst
      cases hfirst
    · rfl
    · rw [hleast index hgreater] at hindex
      cases hindex

/-! ## The turn -/

theorem isDispatchable_of_get? {b : Batch} (live : r.get? index = some b) :
    sch.isDispatchable now r index =
      !(!b.retryDue now || b.locked || !sch.isEligible r index b) := by
  unfold isDispatchable
  rw [live, Option.any_some, Bool.not_or, Bool.not_or, Bool.not_not, Bool.not_not,
    Bool.and_comm (b.retryDue now)]

/-- An attempt at an index that cannot be dispatched changes nothing. -/
theorem advanceIndex_of_not_isDispatchable
    (h : sch.isDispatchable now r index = false) :
    sch.advanceIndex receiver now index r s m =
      { report := none, registry := r, scans := s, metrics := m } := by
  unfold advanceIndex
  dsimp only
  cases hlive : r.get? index with
  | none => rfl
  | some b =>
    rw [isDispatchable_of_get? hlive, Bool.not_eq_false'] at h
    exact if_pos h

/-- An attempt that passes the test advances the batch: it reports on that
index, or has crashed since the receiver did. -/
theorem report_advanceIndex (receiver : Receiver) (s : Scans) (m : Metrics)
    (h : sch.isDispatchable now r index = true) :
    let turn := sch.advanceIndex receiver now index r s m
    (turn.crash = none → turn.report.map Report.index = some index) ∧
      (receiver = none → turn.crash = none) := by
  obtain ⟨b, hlive, -⟩ := Option.any_eq_true .. |>.mp h
  rw [isDispatchable_of_get? hlive, Bool.not_eq_true'] at h
  unfold advanceIndex
  dsimp only
  rw [hlive]
  dsimp only
  rw [h, if_neg Bool.false_ne_true]
  obtain ⟨completedAny, aborted, hreport, -⟩ :=
    sch.report_settle_eq now index b.rounds (sch.guardedAdvance receiver b s) r m
  have hcrash :=
    (sch.report_settle now index b.rounds (sch.guardedAdvance receiver b s) r m).2
  split
  · rename_i crash hending
    refine ⟨nofun, ?_⟩
    rintro rfl
    exact absurd hending (ending_guardedAdvance sch b s crash)
  · rw [hreport, hcrash]
    exact ⟨fun _ => rfl, fun _ => rfl⟩

/-- The first index that can be dispatched is the one that is advanced. -/
theorem advanceFirst_eq (indexes : List Nat) :
    sch.advanceFirst receiver now r s m indexes =
      match indexes.find? (sch.isDispatchable now r) with
      | none => { report := none, registry := r, scans := s, metrics := m }
      | some index => sch.advanceIndex receiver now index r s m := by
  induction indexes with
  | nil => rfl
  | cons index others ih =>
    unfold advanceFirst
    dsimp only
    cases hfirst : sch.isDispatchable now r index with
    | false =>
      rw [List.find?_cons_of_neg (by simp [hfirst]),
        advanceIndex_of_not_isDispatchable hfirst, ← ih]
      rfl
    | true =>
      rw [List.find?_cons_of_pos hfirst]
      refine if_pos ?_
      obtain ⟨hreport, -⟩ := report_advanceIndex receiver s m hfirst
      cases hcrash : (sch.advanceIndex receiver now index r s m).crash with
      | some crash => exact Bool.or_true _
      | none =>
        obtain ⟨report, hsome, -⟩ := Option.map_eq_some_iff.mp (hreport hcrash)
        rw [hsome]
        rfl

/-- A turn advances the batch that the dispatcher would name. -/
theorem advanceNext_eq :
    sch.advanceNext receiver now r s m =
      match sch.nextDispatchable now r with
      | none => { report := none, registry := r, scans := s, metrics := m }
      | some index =>
        sch.advanceIndex receiver now index r s m := advanceFirst_eq r.window

/-- Unless the receiver crashes a turn reports on that batch, and on none if
there is none to name. -/
theorem report_advanceNext_eq (sch : Scheduler) (receiver : Receiver) (now : Nat)
    (r : Registry) (s : Scans) (m : Metrics) :
    let turn := sch.advanceNext receiver now r s m
    (turn.crash = none → turn.report.map Report.index = sch.nextDispatchable now r) ∧
      (receiver = none → turn.crash = none) := by
  rw [advanceNext_eq]
  cases hnext : sch.nextDispatchable now r with
  | none => exact ⟨fun _ => rfl, fun _ => rfl⟩
  | some index =>
    exact report_advanceIndex receiver s m (nextDispatchable_eq_some_iff.mp hnext).1

/-- The oldest index of a registry with batches is that of one, and the first to
be named when it is due. -/
theorem nextDispatchable_oldest (kept : r.WellKept)
    (unlocked : ∀ b ∈ r.batches, b.locked = false) (live : r.isEmpty = false) :
    ∃ b, r.get? r.oldest = some b ∧
      (b.retryDue now = true → sch.nextDispatchable now r = some r.oldest) := by
  have hsome : r.batches ≠ [] := by
    intro hnone
    have hcount := congrArg List.length r.batches_eq_entries
    rw [hnone, List.length_map, ← kept.live] at hcount
    unfold Registry.isEmpty at live
    rw [← hcount] at live
    cases live
  obtain ⟨b, others, hbatches⟩ := List.exists_cons_of_ne_nil hsome
  obtain ⟨hlive, -⟩ := kept.oldest hbatches
  refine ⟨b, hlive, fun hdue =>
    nextDispatchable_eq_some_iff.mpr ⟨?_, fun other hless => ?_⟩⟩
  · exact (isDispatchable_iff unlocked).mpr ⟨b, hlive, hdue, sch.isEligible_oldest r b⟩
  · refine Bool.eq_false_iff.mpr fun hother => ?_
    obtain ⟨hge, -⟩ := Registry.inWindow_iff.mp
      (Registry.mem_window_iff.mp (inWindow_of_isDispatchable hother))
    exact absurd hge (Nat.not_le.mpr hless)

end Scheduler

/-! ## Registries that workers share -/

theorem Registry.WellKept.setLocked {r : Registry} (h : r.WellKept) (index : Nat)
    (locked : Bool) :
    (r.setLocked index locked).WellKept := by
  cases hlive : r.get? index with
  | none =>
    rw [setLocked_of_get?_eq_none hlive]
    exact h
  | some b =>
    rw [setLocked_of_get? hlive]
    exact h.replace hlive _

namespace Fleet

variable {f : Fleet}

/-- Every part that is done to a registry keeps it well. -/
theorem kept_answer (h : f.registry.WellKept) (sch : Scheduler) (call : FleetCall) :
    (answer sch f call).registry.WellKept := by
  cases call with
  | insert id operations =>
    unfold answer insert
    dsimp only
    split
    · exact h
    · split
      · exact h
      · rename_i hinsert
        exact (h.insert hinsert).2.1
  | move scans => exact h
  | look worker now index =>
    unfold answer look
    dsimp only
    split
    · split <;> exact h
    · exact h
  | lock worker =>
    unfold answer lock
    dsimp only
    split
    · split
      · exact h
      · rename_i hlive
        split
        · exact h
        · exact h.replace hlive _
    · exact h
  | gate worker =>
    unfold answer gate
    dsimp only
    split
    · split
      · exact h
      · split
        · exact h
        · exact h.setLocked _ _
    · exact h
  | round worker receiver now =>
    unfold answer round
    dsimp only
    split
    · split
      · exact h
      · rename_i hlive
        exact h.replace hlive _
    · exact h
  | release worker =>
    unfold answer release
    dsimp only
    split
    · exact h.setLocked _ _
    · exact h
  | remove worker =>
    unfold answer remove
    dsimp only
    split
    · split
      · exact h
      · rename_i hremove
        exact (h.remove hremove).2.1
    · exact h

theorem kept_answerAll (h : f.registry.WellKept) (sch : Scheduler)
    (calls : List FleetCall) :
    (f.answerAll sch calls).registry.WellKept := by
  induction calls generalizing f with
  | nil => exact h
  | cons call calls ih => exact ih (kept_answer h sch call)

/-- Whatever parts workers have done to a registry in whatever order: when
nobody holds a batch, the dispatcher names the least index that may advance, and
a turn reports on that index, unless the receiver of its deliveries crashes.  If
the registry has batches, then the oldest index has one, and when that one was
never aborted or its wait is over, it is the index that both choose. -/
theorem choices_agree (sch : Scheduler) (capacity : Nat) (scans : Scans)
    (calls : List FleetCall)
    (unlocked : ∀ b ∈
      ((ofCapacity capacity scans).answerAll sch calls).registry.batches,
      b.locked = false) (receiver : Receiver) (now : Nat) (s : Scans) (m : Metrics) :
    let r := ((ofCapacity capacity scans).answerAll sch calls).registry
    let turn := sch.advanceNext receiver now r s m
    (∀ index, sch.nextDispatchable now r = some index ↔
        sch.MayAdvance now r index ∧ ∀ other < index, ¬sch.MayAdvance now r other) ∧
      (turn.crash = none → turn.report.map Report.index = sch.nextDispatchable now r) ∧
      (receiver = none → turn.crash = none) ∧
      (∀ crash, turn.crash = some crash → ∃ index,
        sch.nextDispatchable now r = some index ∧
        turn = sch.advanceIndex receiver now index r s m) ∧
      (r.isEmpty = false → ∃ b, r.get? r.oldest = some b ∧
        (b.retryAt = none ∨ b.retryDue now = true →
          sch.nextDispatchable now r = some r.oldest ∧
          (turn.crash = none → turn.report.map Report.index = some r.oldest))) := by
  intro r turn
  have hkept : r.WellKept :=
    kept_answerAll (Registry.wellKept_ofCapacity capacity) sch calls
  obtain ⟨hreport, hcrash⟩ := sch.report_advanceNext_eq receiver now r s m
  refine ⟨fun index => ?_, hreport, hcrash, fun crash hcrashed => ?_, fun hlive => ?_⟩
  · rw [Scheduler.nextDispatchable_eq_some_iff, Scheduler.isDispatchable_iff unlocked]
    refine and_congr_right fun _ => forall₂_congr fun other _ => ?_
    rw [← Bool.not_eq_true, Scheduler.isDispatchable_iff unlocked]
  · have hturn : turn = _ := sch.advanceNext_eq
    cases hnext : sch.nextDispatchable now r with
    | none =>
      rw [hnext] at hturn
      rw [hturn] at hcrashed
      cases hcrashed
    | some index =>
      rw [hnext] at hturn
      exact ⟨index, rfl, hturn⟩
  · obtain ⟨b, holdest, hdue⟩ := Scheduler.nextDispatchable_oldest hkept unlocked hlive
    refine ⟨b, holdest, fun hready => ?_⟩
    have hnext :=
      hdue (hready.elim (fun hnever => Batch.retryDue_of_none hnever now) id)
    exact ⟨hnext, fun hcaught => (hreport hcaught).trans hnext⟩

/-- A scan that can be read once and is then closed for a while, and one
that can be read. -/
def closedFirst : Scans where
  graph := default
  cursors := #[
    { source := .script
        [.row (.nat 1), .interruption (.failed ⟨.transactionUnavailable, "closed"⟩)] },
    { source := .script [.row (.nat 1)] }]

/-- Two batches come in, and a worker advances the first until its round is aborted. -/
def advancedTwice : List FleetCall :=
  let advance : List FleetCall := .look 7 0 0 :: attempt 1 7 none 0
  [.insert "first" [⟨0, "rows", { kind := .allNodes, cursor := 0, links := [] }⟩],
    .insert "second" [⟨1, "rows", { kind := .allNodes, cursor := 1, links := [] }⟩]] ++
      advance ++ advance

/-- While the first of the batches waits for its retry both choose the second,
and then the first again. -/
theorem choices_agree_retry :
    let sch : Scheduler := ⟨1, 3, 10⟩
    let r := ((ofCapacity 2 closedFirst).answerAll sch advancedTwice).registry
    (∀ b ∈ r.batches, b.locked = false) ∧ r.isEmpty = false ∧ r.oldest = 0 ∧
      (sch.advanceNext none 5 r closedFirst {}).report.map Report.index = some 1 ∧
      (sch.advanceNext none 10 r closedFirst {}).report.map Report.index = some 0 := by
  intro sch r
  have hunlocked : ∀ b ∈ r.batches, b.locked = false := by decide +kernel
  have hlive : r.isEmpty = false := by decide +kernel
  have holdest : r.oldest = 0 := by decide +kernel
  obtain ⟨-, hearly, hcaught, -⟩ :=
    choices_agree sch 2 closedFirst advancedTwice hunlocked none 5
    closedFirst {}
  obtain ⟨-, -, hcaught', -, hfirst⟩ :=
    choices_agree sch 2 closedFirst advancedTwice hunlocked none 10
    closedFirst {}
  obtain ⟨b, hfound, hagain⟩ := hfirst hlive
  have hdue : (r.get? r.oldest).map (·.retryDue 10) = some true := by decide +kernel
  rw [hfound] at hdue
  have hsecond : sch.nextDispatchable 5 r = some 1 := by decide +kernel
  refine ⟨hunlocked, hlive, holdest, (hearly (hcaught rfl)).trans hsecond, ?_⟩
  rw [← holdest]
  exact (hagain (.inr (Option.some.inj hdue))).2 (hcaught' rfl)

end Fleet

end Lockstep
