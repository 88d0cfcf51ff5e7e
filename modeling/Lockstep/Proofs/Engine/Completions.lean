import Lockstep.Proofs.Engine.Books
set_option autoImplicit false

/-!
# Completions in any order

Workers complete operations in whatever order these come to their ends.  Each
completion puts an outcome into the store, and drops the lowest if there is no
room, which can be the one that has just come in.  What was dropped lies below a
full store, so it would be dropped later as well.  In the end the store holds
the outcomes of the highest numbers, and the order has left no trace.
-/

namespace Lockstep

namespace Outcomes

variable {o : Outcome} {outcomes : List Outcome} {delivered : List Delivery}
  {capacity : Nat}

/-! ## What a sorted store keeps -/

/-- How many outcomes have a higher number. -/
def countAbove (sequence : Nat) (outcomes : List Outcome) : Nat :=
  outcomes.countP fun o => sequence < o.sequence

theorem countAbove_first {first : Outcome}
    (h : ∀ o ∈ outcomes, first.sequence < o.sequence) :
    countAbove first.sequence (first :: outcomes) = outcomes.length := by
  unfold countAbove
  rw [List.countP_cons_of_neg (by simp)]
  exact List.countP_eq_length.mpr fun o ho => decide_eq_true (h o ho)

theorem countAbove_lt_length (h : o ∈ outcomes) :
    countAbove o.sequence outcomes < outcomes.length := by
  refine Nat.lt_of_le_of_ne List.countP_le_length fun hall => ?_
  have hself := List.countP_eq_length.mp hall o h
  simp at hself

theorem length_trim (capacity : Nat) (outcomes : List Outcome) :
    (trim capacity outcomes).length = min outcomes.length capacity := by
  unfold trim
  rw [List.length_drop]
  omega

/-- Cutting a sorted store keeps the outcomes that have fewer above them than
there is room for. -/
theorem mem_trim_iff (sorted : Sorted outcomes) :
    o ∈ trim capacity outcomes ↔
      o ∈ outcomes ∧ countAbove o.sequence outcomes < capacity := by
  induction outcomes with
  | nil => simp [trim]
  | cons first rest ih =>
    obtain ⟨hfirst, hrest⟩ := List.pairwise_cons.mp sorted
    rcases Nat.lt_or_ge rest.length capacity with hroom | hfull
    · rw [trim_of_length_le (first :: rest) hroom]
      exact ⟨fun ho => ⟨ho, Nat.lt_of_lt_of_le (countAbove_lt_length ho) hroom⟩, And.left⟩
    · have hlowest : ¬ countAbove first.sequence (first :: rest) < capacity := by
        rw [countAbove_first hfirst]
        exact Nat.not_lt.mpr hfull
      have habove (ho : o ∈ rest) :
          countAbove o.sequence (first :: rest) = countAbove o.sequence rest :=
        List.countP_cons_of_neg (by simpa using Nat.le_of_lt (hfirst o ho))
      rw [trim_cons hfull, ih hrest]
      constructor
      · rintro ⟨ho, hcount⟩
        exact ⟨List.mem_cons_of_mem _ ho, habove ho ▸ hcount⟩
      · rintro ⟨ho, hcount⟩
        rcases List.mem_cons.mp ho with rfl | ho
        · exact absurd hcount hlowest
        · exact ⟨ho, habove ho ▸ hcount⟩

/-! ## Outcomes of distinct numbers -/

/-- An outcome under a new number replaces none. -/
theorem perm_insert (fresh : o.sequence ∉ outcomes.map Outcome.sequence) :
    (insert o outcomes).Perm (o :: outcomes) := by
  induction outcomes with
  | nil => exact .refl _
  | cons first rest ih =>
    rw [List.map_cons, List.mem_cons, not_or] at fresh
    unfold insert
    rw [if_neg fresh.1]
    split
    · exact .refl _
    · exact ((ih fresh.2).cons first).trans (.swap o first rest)

theorem perm_collect (distinct : (delivered.map (·.operation.sequence)).Nodup) :
    (collect delivered).Perm (delivered.map Delivery.outcome) := by
  induction delivered with
  | nil => exact .refl _
  | cons d delivered ih =>
    obtain ⟨hfresh, hrest⟩ := List.nodup_cons.mp distinct
    have hnew : d.outcome.sequence ∉ (collect delivered).map Outcome.sequence :=
      fun hmem => hfresh (mem_map_sequence_collect.mp hmem)
    exact (perm_insert hnew).trans ((ih hrest).cons d.outcome)

end Outcomes

namespace Engine

variable {e e' : Engine} {operations order : List Delivery}

/-! ## Completing one after the other -/

/-- Deliveries that were taken one after the other, the newest first.  In
between anything may happen that leaves the store, its capacity and the count of
what was dropped alone. -/
inductive Completes (e : Engine) : List Delivery → Engine → Prop
  | nothing : Completes e [] e
  | complete {order : List Delivery} {e' : Engine} (before : Completes e order e')
      {d : Delivery}
      {e'' : Engine} (taken : e'.complete d = (e'', none)) :
        Completes e (d :: order) e''
  | meanwhile {order : List Delivery} {e' : Engine} (before : Completes e order e')
      {e'' : Engine}
      (config : e''.config = e'.config) (outcomes : e''.outcomes = e'.outcomes)
      (evicted : e''.metrics.outcomesEvicted = e'.metrics.outcomesEvicted) :
        Completes e order e''

/-- Nothing keeps an engine from taking deliveries as long as its ledger does. -/
theorem completes_receiveAll (ready : e.receiver = none) (order : List Delivery) :
    e.Completes order (e.receiveAll order.reverse) := by
  induction order with
  | nil => exact .nothing
  | cons d order ih =>
    obtain ⟨-, hcrash⟩ := (e.receiveAll order.reverse).receives_complete d
    have hready : (e.receiveAll order.reverse).receiver = none :=
      (e.receives_receiveAll order.reverse).receiver.trans ready
    have hnext : e.receiveAll (d :: order).reverse =
        ((e.receiveAll order.reverse).complete d).1 := by
      unfold receiveAll
      rw [List.reverse_cons, List.foldl_append]
      rfl
    rw [hnext]
    exact ih.complete (Prod.ext rfl (hcrash.trans hready))

/-- The store is cut after each completion, and it is as if it were cut once, at
the end; what was dropped is what there was no room for. -/
theorem Completes.stored (h : e.Completes order e') (empty : e.outcomes = [])
    (distinct : (order.map (·.operation.sequence)).Nodup) :
    e'.config = e.config ∧
      e'.outcomes = Outcomes.trim e.config.outcomeCapacity (Outcomes.collect order) ∧
      e'.metrics.outcomesEvicted =
        e.metrics.outcomesEvicted +
          .ofNat (order.length - e.config.outcomeCapacity) := by
  induction h with
  | nothing =>
    refine ⟨rfl, empty.trans List.drop_nil.symm, ?_⟩
    rw [List.length_nil, Nat.zero_sub]
    exact (UInt64.add_zero _).symm
  | @complete order e' before d e'' taken ih =>
    obtain ⟨hfresh, hrest⟩ := List.nodup_cons.mp distinct
    obtain ⟨hconfig, houtcomes, hevicted⟩ := ih hrest
    obtain ⟨hreceives, hcrash⟩ := e'.receives_complete d
    have hready : e'.receiver = none := by rw [← hcrash, taken]
    have hstore := outcomes_complete hready d
    have hmetrics := congrArg Metrics.outcomesEvicted (metrics_complete hready d)
    have hsame := hreceives.config
    rw [taken, hconfig] at hsame
    rw [taken, hconfig, houtcomes] at hstore hmetrics
    refine ⟨hsame,
      hstore.trans (Outcomes.trim_insert_trim _ (Outcomes.sorted_collect order)), ?_⟩
    have hnew : d.outcome.sequence ∉
        (Outcomes.trim e.config.outcomeCapacity (Outcomes.collect order)).map
            Outcome.sequence := by
      intro hmem
      obtain ⟨o, ho, hsequence⟩ := List.mem_map.mp hmem
      refine hfresh (Outcomes.mem_map_sequence_collect.mp ?_)
      exact List.mem_map.mpr ⟨o, List.mem_of_mem_drop ho, hsequence⟩
    have hlength : (Outcomes.collect order).length = order.length := by
      rw [(Outcomes.perm_collect hrest).length_eq, List.length_map]
    have hcounted (m : Metrics) (dropped : Nat) :
      (m.addEvicted dropped).outcomesEvicted =
        m.outcomesEvicted + .ofNat dropped := rfl
    have huntouched : (if d.isCompleted then e'.metrics.countCompleted
        else e'.metrics.countFailed).outcomesEvicted = e'.metrics.outcomesEvicted := by
      split <;> rfl
    rw [hmetrics, hcounted, huntouched, hevicted, Outcomes.length_insert hnew,
      Outcomes.length_trim, hlength, UInt64.add_assoc, ← UInt64.ofNat_add,
      List.length_cons]
    congr 2
    omega
  | meanwhile before config outcomes evicted ih =>
    obtain ⟨hconfig, houtcomes, hevicted⟩ := ih distinct
    exact ⟨config.trans hconfig, outcomes.trans houtcomes, evicted.trans hevicted⟩

/-! ## The order -/

/-- An outcome has the number, the text, the status, the steps and the rows
of its operation. -/
theorem eq_outcome_iff {o : Outcome} {d : Delivery} :
    o = d.outcome ↔ o.sequence = d.operation.sequence ∧ o.query = d.operation.query ∧
      o.status = d.status ∧ o.steps = d.operation.pipeline.counters.steps ∧
      o.rows = d.operation.pipeline.rows := by
  obtain ⟨sequence, query, status, steps, rows⟩ := o
  rw [Delivery.outcome, Outcome.mk.injEq]

/-- Whether a store that was empty now holds the outcomes of those operations
that have fewer operations above them than there is room for, in the order of
their numbers, and all others were counted as dropped. -/
structure HoldsHighest (operations : List Delivery) (e e' : Engine) : Prop where
  sorted : Outcomes.Sorted e'.outcomes
  length : e'.outcomes.length = min operations.length e.config.outcomeCapacity
  /-- an outcome tells everything of its own operation -/
  mem_iff : ∀ o, o ∈ e'.outcomes ↔ ∃ d ∈ operations,
    (o.sequence = d.operation.sequence ∧ o.query = d.operation.query ∧
      o.status = d.status ∧
      o.steps = d.operation.pipeline.counters.steps ∧
        o.rows = d.operation.pipeline.rows) ∧
    (operations.countP fun other => d.operation.sequence < other.operation.sequence) <
      e.config.outcomeCapacity
  evicted : e'.metrics.outcomesEvicted =
    e.metrics.outcomesEvicted + .ofNat (operations.length - e.config.outcomeCapacity)

/-- Operations of distinct numbers can be completed in every order while the
ledger takes them, and every order of completions into an empty store comes to
the same: the store holds the highest numbers, as many as it has room for, each
with the outcome of its operation. -/
theorem outcomes_of_any_order (empty : e.outcomes = [])
    (distinct : (operations.map (·.operation.sequence)).Nodup)
    (reordered : order.Perm operations) :
    (e.receiver = none → ∃ e', e.Completes order e') ∧
      ∀ e', e.Completes order e' → HoldsHighest operations e e' := by
  refine ⟨fun ready => ⟨_, completes_receiveAll ready order⟩, fun e' completes => ?_⟩
  have hdistinct : (order.map (·.operation.sequence)).Nodup :=
    (reordered.map _).nodup_iff.mpr distinct
  have hperm : (Outcomes.collect order).Perm (operations.map Delivery.outcome) :=
    (Outcomes.perm_collect hdistinct).trans (reordered.map _)
  have hsorted := Outcomes.sorted_collect order
  obtain ⟨-, houtcomes, hevicted⟩ := completes.stored empty hdistinct
  refine ⟨?_, ?_, fun o => ?_, ?_⟩
  · rw [houtcomes]
    exact hsorted.drop
  · rw [houtcomes, Outcomes.length_trim, hperm.length_eq, List.length_map]
  · have hcount : Outcomes.countAbove o.sequence (Outcomes.collect order) =
        operations.countP fun other => o.sequence < other.operation.sequence := by
      unfold Outcomes.countAbove
      rw [hperm.countP_eq, List.countP_map]
      rfl
    rw [houtcomes, Outcomes.mem_trim_iff hsorted, hcount, hperm.mem_iff, List.mem_map]
    simp only [← eq_outcome_iff]
    constructor
    · rintro ⟨⟨d, hd, rfl⟩, habove⟩
      exact ⟨d, hd, rfl, habove⟩
    · rintro ⟨d, hd, rfl, habove⟩
      exact ⟨⟨d, hd, rfl⟩, habove⟩
  · rw [hevicted, reordered.length_eq]

/-- An operation that ended with some status, some steps and rows. -/
def ended (sequence steps : Nat) (status : Status) (rows : List Value) : Delivery :=
  ⟨⟨sequence, "MATCH (n) RETURN n", {
    kind := .allNodes, cursor := 0, links := [], counters := { steps := steps }, rows :=
      rows.toArray }⟩,
    status⟩

/-- Of three operations that end in the order two, zero, one, a store for two
drops the first when the last comes in.  What it keeps is each operation's own:
the failed one its reason and its one row, the completed one its two rows. -/
theorem outcomes_of_any_order_three :
    let zero := ended 0 1 .completed []
    let one := ended 1 2 (.failed "disk") [.nat 7]
    let two := ended 2 3 .completed [.nat 8, .nat 9]
    let e := fresh { outcomeCapacity := 2 } default default
    let e' := e.receiveAll [two, zero, one]
    HoldsHighest [zero, one, two] e e' ∧
      e'.outcomes = [
        ⟨1, "MATCH (n) RETURN n", .failed "disk", 2, #[.nat 7]⟩,
        ⟨2, "MATCH (n) RETURN n", .completed, 3, #[.nat 8, .nat 9]⟩] ∧
      e'.metrics.outcomesEvicted = 1 := by
  intro zero one two e e'
  have hempty : e.outcomes = [] := rfl
  have hready : e.receiver = none := (Stocked.fresh _ _ _).ready
  have hcompletes : e.Completes [one, zero, two] e' := completes_receiveAll hready _
  have hreordered : [one, zero, two].Perm [zero, one, two] := .swap _ _ _
  obtain ⟨-, hall⟩ := outcomes_of_any_order hempty (by decide) hreordered
  refine ⟨hall e' hcompletes, ?_, by decide +kernel⟩
  rfl

end Engine

end Lockstep
