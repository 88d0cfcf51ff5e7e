import Lockstep.Proofs.Engine.Reports
import Lockstep.Proofs.Engine.Store
import Lockstep.Proofs.Scheduler.Booking
set_option autoImplicit false

/-!
# The books of an engine

Every counter of an engine is the number of something that happened to it:
queries that got a number, deliveries of either kind, batches that got an index
or left the registry, reports of aborted rounds, outcomes that were dropped.
This holds after every single thing that is counted, and so in the middle of a
drain as much as between two requests.
-/

namespace Lockstep

/-- The counters that are balanced against something else. -/
def Metrics.balanced (m : Metrics) : Metrics :=
  { m with batchesRejected := 0, roundsPropagated := 0, tasksDispatched := 0 }

namespace Engine

variable {reports : List Report} {taken : Nat} {closed : Bool} {e e' : Engine}

/-- Each counter of an engine is the number of what it counts: of the reports it
has given, the outcomes that were taken out of its store, and what it is itself.
Batches that a shutdown clears away are not counted as drained. -/
structure Books (reports : List Report) (taken : Nat) (closed : Bool) (e : Engine) :
    Prop where
  ready : e.receiver = none
  kept : e.registry.WellKept
  deferred : e.metrics.queriesDeferred = .ofNat e.queue.nextSequence
  completed : e.metrics.queriesCompleted =
    .ofNat (e.delivered.countP Delivery.isCompleted)
  failed : e.metrics.queriesFailed = .ofNat (e.delivered.countP fun d => !d.isCompleted)
  formed : e.metrics.batchesFormed = .ofNat e.registry.newest
  /-- every batch took an operation from the queue -/
  peopled : e.registry.newest + e.queue.size ≤ e.queue.nextSequence
  drained : closed = false → ∃ drained, e.metrics.batchesDrained = .ofNat drained ∧
    drained + e.registry.live = e.registry.newest
  aborted : e.metrics.roundsAborted = .ofNat (reports.countP (·.aborted))
  sorted : Outcomes.Sorted e.outcomes
  stored : ∀ o ∈ e.outcomes, o.sequence ∈ e.completed
  /-- a store loses no outcome uncounted while no number is delivered twice -/
  evicted : e.completed.Nodup → ∃ evicted, e.metrics.outcomesEvicted = .ofNat evicted ∧
    evicted + e.outcomes.length + taken = e.delivered.length

/-- Whether two engines differ in nothing that the books depend on, but that
operations may have left the queue. -/
structure Aside (e e' : Engine) : Prop where
  receiver : e'.receiver = e.receiver
  registry : e'.registry = e.registry
  outcomes : e'.outcomes = e.outcomes
  delivered : e'.delivered = e.delivered
  next : e'.queue.nextSequence = e.queue.nextSequence
  waiting : e'.queue.size ≤ e.queue.size
  metrics : e'.metrics.balanced = e.metrics.balanced

/-- The parts of an engine that the books depend on. -/
def booked (e : Engine) :=
  (e.receiver, e.registry, e.outcomes, e.delivered, e.queue, e.metrics.balanced)

theorem metrics_complete (ready : e.receiver = none) (d : Delivery) :
    (e.complete d).1.metrics =
      (if d.isCompleted then e.metrics.countCompleted
        else e.metrics.countFailed).addEvicted
        ((Outcomes.insert d.outcome e.outcomes).length - e.config.outcomeCapacity) := by
  obtain ⟨ledger, log, hcomplete⟩ := e.complete_of_ready ready d
  rw [hcomplete]
  rfl

namespace Books

theorem fresh (config : Config) (names : Names) (graph : Graph) :
    Books [] 0 false (Engine.fresh config names graph) where
  ready := (Stocked.fresh config names graph).ready
  kept := Registry.wellKept_ofCapacity _
  deferred := rfl
  completed := rfl
  failed := rfl
  formed := rfl
  peopled := Nat.le_refl _
  drained := fun _ => ⟨0, rfl, rfl⟩
  aborted := rfl
  sorted := .nil
  stored := List.forall_mem_nil _
  evicted := fun _ => ⟨0, rfl, rfl⟩

/-! ## What is counted -/

theorem aside (h : e.Books reports taken closed) (same : Aside e e') :
    e'.Books reports taken closed := by
  have hcompleted : e'.completed = e.completed := congrArg (List.map _) same.delivered
  have hwaiting := same.waiting
  exact {
    ready := same.receiver.trans h.ready
    kept := same.registry ▸ h.kept
    deferred := by
      rw [same.next]
      exact (congrArg Metrics.queriesDeferred same.metrics).trans h.deferred
    completed := by
      rw [same.delivered]
      exact (congrArg Metrics.queriesCompleted same.metrics).trans h.completed
    failed := by
      rw [same.delivered]
      exact (congrArg Metrics.queriesFailed same.metrics).trans h.failed
    formed := by
      rw [same.registry]
      exact (congrArg Metrics.batchesFormed same.metrics).trans h.formed
    peopled := by
      rw [same.registry, same.next]
      exact Nat.le_trans (Nat.add_le_add_left hwaiting _) h.peopled
    drained := fun hclosed => by
      obtain ⟨drained, hdrained, hlive⟩ := h.drained hclosed
      rw [same.registry]
      exact ⟨drained, (congrArg Metrics.batchesDrained same.metrics).trans hdrained, hlive⟩
    aborted := (congrArg Metrics.roundsAborted same.metrics).trans h.aborted
    sorted := same.outcomes ▸ h.sorted
    stored := by
      rw [same.outcomes, hcompleted]
      exact h.stored
    evicted := fun hnodup => by
      rw [hcompleted] at hnodup
      obtain ⟨evicted, hevicted, hlength⟩ := h.evicted hnodup
      rw [same.outcomes, same.delivered]
      exact ⟨evicted, (congrArg Metrics.outcomesEvicted same.metrics).trans hevicted, hlength⟩ }

theorem unchanged (h : e.Books reports taken closed) (same : e'.booked = e.booked) :
    e'.Books reports taken closed := by
  simp only [booked, Prod.mk.injEq] at same
  obtain ⟨hreceiver, hregistry, houtcomes, hdelivered, hqueue, hmetrics⟩ := same
  refine h.aside ⟨hreceiver, hregistry, houtcomes, hdelivered, ?_, ?_, hmetrics⟩
  · rw [hqueue]
  · rw [hqueue]

/-- A delivery is counted by its status; its outcome is stored, or another is
dropped and counted. -/
theorem complete (h : e.Books reports taken closed) (d : Delivery) :
    (e.complete d).1.Books reports taken closed := by
  have hreceives := (e.receives_complete d).1
  have hdelivered : (e.complete d).1.delivered = d :: e.delivered := hreceives.delivered
  have hcompleted : (e.complete d).1.completed = d.operation.sequence :: e.completed :=
    congrArg (List.map _) hdelivered
  have hmetrics := metrics_complete h.ready d
  have houtcomes := outcomes_complete h.ready d
  have hcounted :
    ((e.complete d).1.metrics.queriesDeferred = e.metrics.queriesDeferred ∧
      (e.complete d).1.metrics.batchesFormed = e.metrics.batchesFormed ∧
      (e.complete d).1.metrics.batchesDrained = e.metrics.batchesDrained ∧
      (e.complete d).1.metrics.roundsAborted = e.metrics.roundsAborted) := by
    rw [hmetrics]
    split <;> exact ⟨rfl, rfl, rfl, rfl⟩
  obtain ⟨hdeferred, hformed, hdrained, haborted⟩ := hcounted
  constructor
  case ready => exact hreceives.receiver.trans h.ready
  case kept => exact hreceives.registry ▸ h.kept
  case deferred =>
    rw [hdeferred, hreceives.queue]
    exact h.deferred
  case completed =>
    rw [hmetrics, hdelivered, List.countP_cons, UInt64.ofNat_add, ← h.completed]
    cases d.isCompleted
    · exact (UInt64.add_zero _).symm
    · rfl
  case failed =>
    rw [hmetrics, hdelivered, List.countP_cons, UInt64.ofNat_add, ← h.failed]
    cases d.isCompleted
    · rfl
    · exact (UInt64.add_zero _).symm
  case formed =>
    rw [hformed, hreceives.registry]
    exact h.formed
  case peopled =>
    rw [hreceives.registry, hreceives.queue]
    exact h.peopled
  case drained =>
    rw [hdrained, hreceives.registry]
    exact h.drained
  case aborted => exact haborted.trans h.aborted
  case sorted =>
    rw [houtcomes]
    exact h.sorted.insert.sublist (List.drop_sublist _ _)
  case stored =>
    rw [hcompleted]
    intro o ho
    rcases hreceives.outcomes o ho with hold | ⟨d', hd', rfl⟩
    · exact List.mem_cons_of_mem _ (h.stored o hold)
    · rw [List.mem_singleton.mp hd']
      exact List.mem_cons_self
  case evicted =>
    intro hnodup
    rw [hcompleted] at hnodup
    obtain ⟨hnew, hold⟩ := List.nodup_cons.mp hnodup
    obtain ⟨evicted, hevicted, hlength⟩ := h.evicted hold
    have hfresh : d.outcome.sequence ∉ e.outcomes.map Outcome.sequence := by
      intro hmem
      obtain ⟨o, ho, hsame⟩ := List.mem_map.mp hmem
      have hstored := h.stored o ho
      rw [hsame] at hstored
      exact hnew hstored
    have hinsert := Outcomes.length_insert hfresh
    refine ⟨evicted +
      ((Outcomes.insert d.outcome e.outcomes).length - e.config.outcomeCapacity), ?_, ?_⟩
    · rw [hmetrics, UInt64.ofNat_add, ← hevicted]
      split <;> rfl
    · rw [houtcomes, hdelivered, Outcomes.trim, List.length_drop, List.length_cons]
      omega

theorem completeAll (h : e.Books reports taken closed) (deliveries : List Delivery) :
    (e.completeAll deliveries).1.Books reports taken closed := by
  induction deliveries generalizing e with
  | nil => exact h
  | cons d others ih =>
    have hfirst := h.complete d
    unfold Engine.completeAll
    generalize e.complete d = completed at hfirst
    obtain ⟨e', crash⟩ := completed
    cases crash with
    | some crash => exact hfirst
    | none => exact ih hfirst

theorem receiveAll (h : e.Books reports taken closed) (deliveries : List Delivery) :
    (e.receiveAll deliveries).Books reports taken closed := by
  induction deliveries generalizing e with
  | nil => exact h
  | cons d others ih => exact ih (h.complete d)

/-- An accepted query gets a number and is counted. -/
theorem execute (h : e.Books reports taken closed)
    (planner : String → Except Failure Plan) (query : String) :
    (e.execute planner query).2.Books reports taken closed := by
  unfold Engine.execute
  split
  · exact h
  · rename_i plan _
    have hsize : (e.queue.enqueue query (plan.openScan e.scans).1).2.size =
        e.queue.size + 1 :=
      List.length_append
    exact {
      h with
      deferred := (congrArg (· + 1) h.deferred).trans (UInt64.ofNat_add _ _).symm
      peopled := by
        show e.registry.newest +
          (e.queue.enqueue query (plan.openScan e.scans).1).2.size ≤
          e.queue.nextSequence + 1
        rw [hsize]
        exact Nat.succ_le_succ h.peopled }

/-- A batch of waiting operations that is registered gets an index and is counted. -/
theorem register (h : e.Books reports taken closed) {b : Batch} {index : Nat}
    {r : Registry} (insert : e.registry.insert? b = some (index, r)) {queue : Queue}
    (next : queue.nextSequence = e.queue.nextSequence)
    (took : queue.size < e.queue.size) :
    Books reports taken closed
      { e with queue := queue, registry := r, metrics := e.metrics.countFormed } := by
  obtain ⟨hnewest, hlive⟩ := Registry.counts_insert? insert
  have hpeopled := h.peopled
  exact {
    h with
    kept := (h.kept.insert insert).2.1
    deferred := next ▸ h.deferred
    formed := by
      rw [hnewest, UInt64.ofNat_add, ← h.formed]
      rfl
    peopled := by
      dsimp only
      omega
    drained := fun hclosed => by
      obtain ⟨drained, hdrained, hbalance⟩ := h.drained hclosed
      exact ⟨drained, hdrained, by dsimp only; omega⟩ }

/-- The report of a turn is counted if its round was aborted, and the batch if it left. -/
theorem settle (h : e.Books reports taken closed) {turn : Turn}
    (booked : turn.Booked e.registry e.metrics) :
    (e.settle turn).Books (reports ++ turn.report.toList) taken closed := by
  obtain ⟨hkept, hnewest, gone, hgone, hdrops⟩ := booked.registry h.kept
  have hturned : Books (reports ++ turn.report.toList) taken closed
      { e with
        registry := turn.registry
        scans := turn.scans
        metrics := turn.metrics } := {
    h with
    kept := hkept
    deferred := booked.deferred.trans h.deferred
    completed := booked.completed.trans h.completed
    failed := booked.failed.trans h.failed
    formed := hnewest ▸ booked.formed.trans h.formed
    peopled := hnewest ▸ h.peopled
    drained := fun hclosed => by
      obtain ⟨drained, hdrained, hbalance⟩ := h.drained hclosed
      refine ⟨drained + gone, ?_, ?_⟩
      · rw [hdrops, hdrained, UInt64.ofNat_add]
      · dsimp only
        omega
    aborted := by
      rw [booked.aborted, h.aborted, List.countP_append, UInt64.ofNat_add]
    evicted := fun hnodup => by
      rw [booked.evicted]
      exact h.evicted hnodup }
  exact (hturned.receiveAll turn.deliveries).unchanged rfl

theorem take (h : e.Books reports taken closed) {outcomes : List Outcome} {more : Nat}
    (sub : outcomes.Sublist e.outcomes)
    (length : outcomes.length + more = e.outcomes.length) :
    Books reports (taken + more) closed { e with outcomes := outcomes } := {
  h with
  sorted := h.sorted.sublist sub
  stored := fun o ho => h.stored o (sub.subset ho)
  evicted := fun hnodup => by
    obtain ⟨evicted, hevicted, hbalance⟩ := h.evicted hnodup
    exact ⟨evicted, hevicted, by dsimp only; omega⟩ }

theorem close (h : e.Books reports taken closed) : e.Books reports taken true :=
  { h with drained := fun hopen => nomatch hopen }

theorem clear (h : e.Books reports taken true) :
    Books reports taken true { e with registry := e.registry.drain.2 } :=
  { h with kept := h.kept.drain.1, drained := fun hopen => nomatch hopen }

end Books

end Engine

end Lockstep
