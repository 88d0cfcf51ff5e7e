import Lockstep.Engine.Basic
set_option autoImplicit false

/-!
# What receiving deliveries does to an engine

A delivery that is taken goes on record and may leave its outcome in the store.
Nothing else that operations or batches depend on is touched, whether or not the
ledger crashes on the way.
-/

namespace Lockstep

namespace Ledger

theorem retention_pruneAt (l : Ledger) (now : Int) :
    (l.pruneAt now).1.retention = l.retention := by
  unfold pruneAt
  split <;> rfl

theorem crash_pruneAt (l : Ledger) (now : Int) :
    (l.pruneAt now).2 = l.obstacle? now := by
  unfold pruneAt
  cases l.obstacle? now <;> rfl

end Ledger

/-- A stored outcome is the new one or was stored before. -/
theorem Outcomes.mem_of_mem_insert {o outcome : Outcome} {outcomes : List Outcome}
    (h : o ∈ insert outcome outcomes) : o = outcome ∨ o ∈ outcomes := by
  induction outcomes with
  | nil => exact .inl (List.mem_singleton.mp h)
  | cons first rest ih =>
    unfold insert at h
    split at h
    · exact List.mem_cons.mp h
    · split at h
      · rcases List.mem_cons.mp h with rfl | hrest
        · exact .inl rfl
        · exact .inr (List.mem_cons_of_mem _ hrest)
      · rcases List.mem_cons.mp h with rfl | hrest
        · exact .inr List.mem_cons_self
        · exact (ih hrest).imp_right (List.mem_cons_of_mem _)

namespace Engine

/-- An engine after taking deliveries, in their order. -/
structure Receives (taken : List Delivery) (e e' : Engine) : Prop where
  config : e'.config = e.config
  queue : e'.queue = e.queue
  registry : e'.registry = e.registry
  scans : e'.scans = e.scans
  clock : e'.clock = e.clock
  retention : e'.ledger.retention = e.ledger.retention
  delivered : e'.delivered = taken.reverse ++ e.delivered
  outcomes : ∀ o ∈ e'.outcomes, o ∈ e.outcomes ∨ ∃ d ∈ taken, o = d.outcome

namespace Receives

variable {e e' e'' : Engine} {taken taken' : List Delivery}

theorem refl (e : Engine) : Receives [] e e :=
  ⟨rfl, rfl, rfl, rfl, rfl, rfl, rfl, fun _ ho => .inl ho⟩

theorem trans (h : Receives taken e e') (h' : Receives taken' e' e'') :
    Receives (taken ++ taken') e e'' where
  config := h'.config.trans h.config
  queue := h'.queue.trans h.queue
  registry := h'.registry.trans h.registry
  scans := h'.scans.trans h.scans
  clock := h'.clock.trans h.clock
  retention := h'.retention.trans h.retention
  delivered := by
    rw [h'.delivered, h.delivered, List.reverse_append, List.append_assoc]
  outcomes := by
    intro o ho
    rcases h'.outcomes o ho with ho | ⟨d, hd, rfl⟩
    · rcases h.outcomes o ho with ho | ⟨d, hd, rfl⟩
      · exact .inl ho
      · exact .inr ⟨d, List.mem_append_left _ hd, rfl⟩
    · exact .inr ⟨d, List.mem_append_right _ hd, rfl⟩

theorem after (h : Receives taken e' e'') (same : Receives [] e e') :
    Receives taken e e'' :=
  same.trans h

theorem before (h : Receives taken e e') (same : Receives [] e' e'') :
    Receives taken e e'' := by
  rw [← List.append_nil taken]
  exact h.trans same

theorem receiver (h : Receives taken e e') : e'.receiver = e.receiver := by
  unfold Engine.receiver Ledger.obstacle?
  rw [h.clock, h.retention]

end Receives

theorem receives_nil (e : Engine) (now : Nat) (metrics : Metrics) (batchesNamed : Nat)
    (pool : Option WorkerPool) (propagating : Bool) (log : Array LogEntry) :
    Receives [] e { e with
      now := now
      metrics := metrics
      batchesNamed := batchesNamed
      pool := pool
      propagating := propagating
      log := log } :=
  ⟨rfl, rfl, rfl, rfl, rfl, rfl, rfl, fun _ ho => .inl ho⟩

theorem mem_outcomes_keep {e : Engine} {outcome o : Outcome}
    (h : o ∈ (e.keep outcome).outcomes) :
    o = outcome ∨ o ∈ e.outcomes :=
  Outcomes.mem_of_mem_insert (List.mem_of_mem_drop h)

/-- A delivery that was recorded is taken, whether or not its outcome is kept. -/
theorem receives_recorded (e : Engine) (d : Delivery) {ledger : Ledger}
    (retention : ledger.retention = e.ledger.retention) (metrics : Metrics)
    (log : Array LogEntry) :
    let recorded := { e with
      delivered := d :: e.delivered
      ledger := ledger
      metrics := metrics
      log := log }
    Receives [d] e recorded ∧ Receives [d] e (recorded.keep d.outcome) := by
  intro recorded
  refine ⟨⟨rfl, rfl, rfl, rfl, rfl, retention, rfl, fun _ ho => .inl ho⟩,
    ⟨rfl, rfl, rfl, rfl, rfl, retention, rfl, ?_⟩⟩
  intro o ho
  rcases mem_outcomes_keep ho with rfl | ho
  · exact .inr ⟨d, List.mem_singleton_self d, rfl⟩
  · exact .inl ho

/-- A delivery is taken, and the ledger crashes exactly if it cannot reach back
over its retention. -/
theorem receives_complete (e : Engine) (d : Delivery) :
    Receives [d] e (e.complete d).1 ∧ (e.complete d).2 = e.receiver := by
  obtain ⟨op, status⟩ := d
  cases status with
  | completed =>
    let noted : Ledger := { e.ledger with
      finishTimes := e.ledger.finishTimes.insert op.sequence e.clock
      completions := ⟨op.sequence, e.clock⟩ :: e.ledger.completions }
    have hretention : (e.ledger.recordCompletion e.clock op.sequence).1.retention =
        e.ledger.retention := noted.retention_pruneAt e.clock
    have hcrash : (e.ledger.recordCompletion e.clock op.sequence).2 = e.receiver :=
      noted.crash_pruneAt e.clock
    have hrecorded := e.receives_recorded ⟨op, .completed⟩ hretention
    unfold complete completeOk
    dsimp only
    generalize e.ledger.recordCompletion e.clock op.sequence = recorded
      at hrecorded hcrash
    obtain ⟨ledger, crash⟩ := recorded
    rw [← hcrash]
    cases crash with
    | some crash => exact ⟨(hrecorded _ _).1, rfl⟩
    | none => exact ⟨(hrecorded _ _).2, rfl⟩
  | failed reason =>
    let noted : Ledger :=
      { e.ledger with failures := ⟨op.sequence, e.clock⟩ :: e.ledger.failures }
    have hretention : (e.ledger.recordFailure e.clock op.sequence).1.retention =
        e.ledger.retention := noted.retention_pruneAt e.clock
    have hcrash : (e.ledger.recordFailure e.clock op.sequence).2 = e.receiver :=
      noted.crash_pruneAt e.clock
    have hrecorded := e.receives_recorded ⟨op, .failed reason⟩ hretention
    unfold complete completeFailed
    dsimp only
    generalize e.ledger.recordFailure e.clock op.sequence = recorded at hrecorded hcrash
    obtain ⟨ledger, crash⟩ := recorded
    rw [← hcrash]
    cases crash with
    | some crash => exact ⟨(hrecorded _ _).1, rfl⟩
    | none => exact ⟨(hrecorded _ _).2, rfl⟩

/-- Deliveries are taken in order up to a crash of the ledger. -/
theorem receives_completeAll (e : Engine) (deliveries : List Delivery) :
    ∃ taken, taken <+: deliveries ∧ Receives taken e (e.completeAll deliveries).1 ∧
      (e.receiver = none → (e.completeAll deliveries).2 = none ∧
        taken = deliveries) := by
  induction deliveries generalizing e with
  | nil => exact ⟨[], List.prefix_rfl, .refl e, fun _ => ⟨rfl, rfl⟩⟩
  | cons d others ih =>
    obtain ⟨hreceives, hcrash⟩ := e.receives_complete d
    unfold completeAll
    generalize e.complete d = completed at hreceives hcrash
    obtain ⟨e', crash⟩ := completed
    cases crash with
    | some crash =>
      refine ⟨[d], ⟨others, rfl⟩, hreceives, ?_⟩
      intro hnone
      rw [hnone] at hcrash
      cases hcrash
    | none =>
      obtain ⟨taken, hprefix, hrest, hall⟩ := ih e'
      refine ⟨d :: taken, List.prefix_cons_inj d |>.mpr hprefix,
        hreceives.trans hrest, ?_⟩
      intro hnone
      obtain ⟨hlast, htaken⟩ := hall (hreceives.receiver.trans hnone)
      exact ⟨hlast, congrArg (d :: ·) htaken⟩

theorem receives_receiveAll (e : Engine) (deliveries : List Delivery) :
    Receives deliveries e (e.receiveAll deliveries) := by
  induction deliveries generalizing e with
  | nil => exact .refl e
  | cons d others ih => exact (e.receives_complete d).1.trans (ih _)

end Engine

end Lockstep
