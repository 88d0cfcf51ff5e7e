import Lockstep.Proofs.Engine.Lasting
import Lockstep.Proofs.Engine.Lossless
import Mathlib.Data.List.Sort
set_option autoImplicit false

/-!
# What the store holds

The outcomes of all deliveries, put in order and then cut to the capacity:
this is what the store holds, although it is cut after every delivery.  For
what was dropped lies below all that is stored, and so it would be dropped in
the end as well.
-/

namespace Lockstep

/-- Whether the operation was delivered as completed. -/
def Delivery.isCompleted (d : Delivery) : Bool :=
  match d.status with
  | .completed => true
  | .failed _ => false

namespace Outcomes

variable {o : Outcome} {outcomes : List Outcome}

/-! ## Order -/

/-- Each number is larger than those before it. -/
def Sorted (outcomes : List Outcome) : Prop :=
  outcomes.Pairwise fun o o' => o.sequence < o'.sequence

theorem insert_of_lt (h : ∀ o' ∈ outcomes, o.sequence < o'.sequence) :
    insert o outcomes = o :: outcomes := by
  cases outcomes with
  | nil => rfl
  | cons first rest => exact if_pos (h first List.mem_cons_self)

theorem mem_map_sequence_insert {n : Nat} :
    n ∈ (insert o outcomes).map Outcome.sequence ↔
      n = o.sequence ∨ n ∈ outcomes.map Outcome.sequence := by
  induction outcomes with
  | nil => exact List.mem_cons
  | cons first rest ih =>
    unfold insert
    split
    · exact List.mem_cons
    · split
      · rename_i hsame
        rw [List.map_cons, List.map_cons, List.mem_cons, List.mem_cons, hsame,
          ← or_assoc, or_self]
      · rw [List.map_cons, List.map_cons, List.mem_cons, List.mem_cons, ih,
          or_left_comm]

theorem Sorted.insert (h : Sorted outcomes) : Sorted (insert o outcomes) := by
  induction outcomes with
  | nil => exact List.pairwise_singleton _ _
  | cons first rest ih =>
    obtain ⟨hfirst, hrest⟩ := List.pairwise_cons.mp h
    unfold Outcomes.insert
    split
    · rename_i hbelow
      refine List.pairwise_cons.mpr
        ⟨List.forall_mem_cons.mpr ⟨hbelow, fun o' ho' => ?_⟩, h⟩
      exact hbelow.trans (hfirst o' ho')
    · split
      · rename_i hsame
        exact List.pairwise_cons.mpr ⟨hsame ▸ hfirst, hrest⟩
      · refine List.pairwise_cons.mpr ⟨fun o' ho' => ?_, ih hrest⟩
        rcases mem_of_mem_insert ho' with rfl | ho'
        · omega
        · exact hfirst o' ho'

theorem length_le_length_insert : outcomes.length ≤ (insert o outcomes).length := by
  induction outcomes with
  | nil => exact Nat.zero_le _
  | cons first rest ih =>
    unfold insert
    split
    · exact Nat.le_succ _
    · split
      · exact Nat.le_refl _
      · exact Nat.succ_le_succ ih

theorem length_insert (fresh : o.sequence ∉ outcomes.map Outcome.sequence) :
    (insert o outcomes).length = outcomes.length + 1 := by
  induction outcomes with
  | nil => rfl
  | cons first rest ih =>
    rw [List.map_cons, List.mem_cons, not_or] at fresh
    unfold insert
    rw [if_neg fresh.1]
    split
    · rfl
    · rw [List.length_cons, List.length_cons, ih fresh.2]

/-- Taking an outcome of a sorted store takes no other. -/
theorem length_take? {sequence : Nat} {rest : List Outcome} (sorted : Sorted outcomes)
    (took : take? sequence outcomes = some (o, rest)) :
    rest.length + 1 = outcomes.length := by
  obtain ⟨found, hfound, heq⟩ := Option.map_eq_some_iff.mp took
  obtain ⟨rfl, rfl⟩ := Prod.mk.inj heq
  have hmem := List.mem_of_find?_eq_some hfound
  have hsequence : found.sequence = sequence := by simpa using List.find?_some hfound
  have htaken : sequence ∈ outcomes.map Outcome.sequence :=
    hsequence ▸ List.mem_map_of_mem hmem
  have hnodup : (outcomes.map Outcome.sequence).Nodup :=
    (List.pairwise_map.mpr sorted).imp Nat.ne_of_lt
  have hone : outcomes.countP (fun o => o.sequence == sequence) = 1 := by
    rw [← List.count_eq_one_of_mem hnodup htaken, List.count, List.countP_map]
    rfl
  have hsplit := outcomes.length_eq_countP_add_countP fun o => o.sequence == sequence
  rw [hone, Nat.add_comm] at hsplit
  rw [hsplit, ← List.countP_eq_length_filter]
  simp only [bne, Bool.not_eq_true, Bool.decide_eq_false]

/-! ## Capacity -/

theorem trim_of_length_le (outcomes : List Outcome) {capacity : Nat}
    (h : outcomes.length ≤ capacity) :
    trim capacity outcomes = outcomes := by
  unfold trim
  rw [Nat.sub_eq_zero_of_le h, List.drop_zero]

theorem trim_cons {capacity : Nat} (h : capacity ≤ outcomes.length) :
    trim capacity (o :: outcomes) = trim capacity outcomes := by
  unfold trim
  rw [List.length_cons, Nat.sub_add_comm h]
  rfl

/-- What is dropped before another outcome is stored would be dropped then. -/
theorem trim_insert_trim (capacity : Nat) (h : Sorted outcomes) :
    trim capacity (insert o (trim capacity outcomes)) =
      trim capacity (insert o outcomes) := by
  induction outcomes with
  | nil => rw [trim_of_length_le [] (Nat.zero_le _)]
  | cons first rest ih =>
    obtain ⟨hfirst, hrest⟩ := List.pairwise_cons.mp h
    rcases Nat.lt_or_ge rest.length capacity with hroom | hfull
    · rw [trim_of_length_le (first :: rest) hroom]
    · rw [trim_cons hfull, ih hrest]
      have hbelow (low : o.sequence ≤ first.sequence) :
          trim capacity (insert o rest) = trim capacity rest := by
        rw [insert_of_lt fun o' ho' => Nat.lt_of_le_of_lt low (hfirst o' ho'),
          trim_cons hfull]
      rw [insert]
      split
      · rename_i hlow
        rw [hbelow hlow.le, trim_cons (Nat.le_succ_of_le hfull), trim_cons hfull]
      · split
        · rename_i hsame
          rw [hbelow hsame.le, trim_cons hfull]
        · rw [trim_cons (Nat.le_trans hfull length_le_length_insert)]

/-! ## Deliveries -/

/-- The outcomes of deliveries, the newest first, by increasing number. -/
def collect (delivered : List Delivery) : List Outcome :=
  delivered.foldr (fun d outcomes => insert d.outcome outcomes) []

theorem sorted_collect (delivered : List Delivery) : Sorted (collect delivered) := by
  induction delivered with
  | nil => exact .nil
  | cons d delivered ih => exact ih.insert

theorem mem_map_sequence_collect {delivered : List Delivery} {n : Nat} :
    n ∈ (collect delivered).map Outcome.sequence ↔
      n ∈ delivered.map (·.operation.sequence) := by
  induction delivered with
  | nil => exact Iff.rfl
  | cons d delivered ih =>
    rw [List.map_cons, List.mem_cons, ← ih]
    exact mem_map_sequence_insert

/-- The outcomes of operations that are numbered in order are numbered in order. -/
theorem map_sequence_collect {delivered : List Delivery} {count : Nat}
    (h : (delivered.map (·.operation.sequence)).Perm (List.range count)) :
    (collect delivered).map Outcome.sequence = List.range count := by
  have hsorted : ((collect delivered).map Outcome.sequence).Pairwise (· < ·) :=
    List.pairwise_map.mpr (sorted_collect delivered)
  refine hsorted.eq_of_mem_iff List.pairwise_lt_range fun n => ?_
  rw [mem_map_sequence_collect, h.mem_iff]

end Outcomes

namespace Engine

variable {capacity : Nat} {e : Engine}

/-- The ledger takes every delivery, and the store holds the outcomes of all
deliveries, cut to the capacity. -/
structure Stocked (capacity : Nat) (e : Engine) : Prop where
  ready : e.receiver = none
  limit : e.config.outcomeCapacity = capacity
  outcomes : e.outcomes = Outcomes.trim capacity (Outcomes.collect e.delivered)

/-- A delivery that the ledger takes is recorded and counted by its status, and
its outcome is kept. -/
theorem complete_of_ready (ready : e.receiver = none) (d : Delivery) :
    ∃ ledger log, (e.complete d).1 = keep { e with
      delivered := d :: e.delivered
      ledger := ledger
      metrics :=
  if d.isCompleted then e.metrics.countCompleted else e.metrics.countFailed
      log := log } d.outcome := by
  have htaken := (e.receives_complete d).2.trans ready
  obtain ⟨op, status⟩ := d
  unfold complete at htaken ⊢
  cases status with
  | completed =>
    unfold completeOk at htaken ⊢
    dsimp only at htaken ⊢
    generalize e.ledger.recordCompletion e.clock op.sequence = recorded at htaken
    obtain ⟨ledger, crash⟩ := recorded
    cases crash with
    | some crash => cases htaken
    | none => exact ⟨ledger, _, rfl⟩
  | failed reason =>
    unfold completeFailed at htaken ⊢
    dsimp only at htaken ⊢
    generalize e.ledger.recordFailure e.clock op.sequence = recorded at htaken
    obtain ⟨ledger, crash⟩ := recorded
    cases crash with
    | some crash => cases htaken
    | none => exact ⟨ledger, _, rfl⟩

theorem outcomes_complete (ready : e.receiver = none) (d : Delivery) :
    (e.complete d).1.outcomes =
      Outcomes.trim e.config.outcomeCapacity
        (Outcomes.insert d.outcome e.outcomes) := by
  obtain ⟨ledger, log, hcomplete⟩ := e.complete_of_ready ready d
  rw [hcomplete]
  rfl

namespace Stocked

theorem fresh (config : Config) (names : Names) (graph : Graph) :
    (Engine.fresh config names graph).Stocked config.outcomeCapacity :=
  ⟨Ledger.obstacle?_of_isSome config.isSome_instant?_retentionMs, rfl,
    List.drop_nil.symm⟩

theorem complete (h : e.Stocked capacity) (d : Delivery) :
    (e.complete d).1.Stocked capacity := by
  have hreceives := (e.receives_complete d).1
  have hdelivered : (e.complete d).1.delivered = d :: e.delivered := hreceives.delivered
  refine ⟨hreceives.receiver.trans h.ready, (congrArg _ hreceives.config).trans h.limit, ?_⟩
  rw [outcomes_complete h.ready d, hdelivered, h.limit, h.outcomes]
  exact Outcomes.trim_insert_trim _ (Outcomes.sorted_collect _)

/-- Once everything was delivered, the store holds the highest numbers. -/
theorem map_sequence (h : e.Stocked capacity) {count : Nat}
    (all : e.completed.Perm (List.range count)) :
    e.outcomes.map Outcome.sequence = (List.range count).drop (count - capacity) := by
  have hnumbers := Outcomes.map_sequence_collect all
  have hlength := congrArg List.length hnumbers
  rw [List.length_map, List.length_range] at hlength
  rw [h.outcomes, Outcomes.trim, List.map_drop, hnumbers, hlength]

/-- Then a number has an outcome exactly if it is one of the highest. -/
theorem exists_outcome_iff (h : e.Stocked capacity) {count : Nat}
    (all : e.completed.Perm (List.range count)) {sequence : Nat} :
    (∃ o ∈ e.outcomes, o.sequence = sequence) ↔
      sequence < count ∧ count ≤ sequence + capacity := by
  rw [← List.mem_map, h.map_sequence all, List.range_eq_range', List.drop_range',
    List.mem_range'_1]
  omega

end Stocked

/-- While the ledger takes every delivery, the store lasts. -/
theorem lasting_stocked (capacity : Nat) : Lasting (Stocked capacity) where
  complete := fun e d h => h.complete d
  alike := by
    intro e e' halike h
    refine ⟨?_, (congrArg _ halike.config).trans h.limit, ?_⟩
    · have hready := h.ready
      unfold receiver Ledger.obstacle? at hready ⊢
      rw [halike.clock, halike.retention]
      exact hready
    · rw [halike.outcomes, halike.delivered]
      exact h.outcomes

end Engine

end Lockstep
