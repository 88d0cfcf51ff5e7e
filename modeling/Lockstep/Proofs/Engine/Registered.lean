import Lockstep.Proofs.Engine.Lossless
import Lockstep.Proofs.Registry.IndexMap
set_option autoImplicit false

/-!
# No empty batch is live

A batch is formed of one operation at least, and it leaves the registry with its
last member, as long as the engine takes every delivery.  So an engine without
operations has no batches either.
-/

namespace Lockstep

namespace Engine

variable {e e' : Engine}

/-- The registry is kept well and every live batch has members. -/
structure Registered (e : Engine) : Prop where
  kept : e.registry.WellKept
  peopled : ∀ b ∈ e.registry.batches, b.members ≠ []

namespace Registered

theorem congr (h : e.Registered) (registry : e'.registry = e.registry) :
    e'.Registered := by
  refine ⟨?_, ?_⟩ <;> rw [registry]
  · exact h.kept
  · exact h.peopled

theorem fresh (config : Config) (names : Names) (graph : Graph) :
    (Engine.fresh config names graph).Registered :=
  ⟨Registry.wellKept_ofCapacity _, List.forall_mem_nil _⟩

theorem formed (h : e.Registered) {name : String} {ops : List Operation} {s : Scans}
    {b : Batch} {index : Nat} {r : Registry} (form : Batch.form name ops s = .ok b)
    (insert : e.registry.insert? b = some (index, r)) (registry : e'.registry = r) :
    e'.Registered := by
  subst registry
  refine ⟨(h.kept.insert insert).2.1, ?_⟩
  rw [(Registry.batches_insert? h.kept.sound insert).2]
  exact List.forall_mem_append.mpr
    ⟨h.peopled, List.forall_mem_singleton.mpr (Batch.members_ne_nil_of_form form)⟩

theorem advanced (h : e.Registered) {index : Nat} {b b' : Batch} {r : Registry}
    (live : e.registry.get? index = some b)
    (resettled : e.registry.Resettled index b' r)
    (emptied : b'.members = [] →
      r.batches = e.registry.before index ++ e.registry.behind index)
    (registry : e'.registry = r) : e'.Registered := by
  subst registry
  refine ⟨resettled.kept h.kept, ?_⟩
  by_cases hempty : b'.members = []
  · have hothers := h.peopled
    rw [Registry.batches_of_get? live] at hothers
    obtain ⟨hbefore, hbehind⟩ := List.forall_mem_append.mp hothers
    rw [emptied hempty]
    exact List.forall_mem_append.mpr ⟨hbefore, (List.forall_mem_cons.mp hbehind).2⟩
  · exact resettled.forall_batches live h.peopled fun _ => hempty

theorem drained (h : e.Registered) (registry : e'.registry = e.registry.drain.2) :
    e'.Registered := by
  refine ⟨registry ▸ h.kept.drain.1, ?_⟩
  rw [registry, (Registry.batches_drain h.kept.sound).2.2]
  exact List.forall_mem_nil _

/-- Every move of an engine that takes its deliveries keeps the registry free
of empty batches. -/
theorem move (h : e.Registered) (ready : e.receiver = none) (hmove : Move e e') :
    e'.Registered := by
  cases hmove with
  | idle rest => exact h.congr rest.registry
  | formed form insert rest => exact h.formed form insert rest.registry
  | refused form some all rest => exact h.congr rest.registry
  | stepped took step going unfinished rest => exact h.congr rest.registry
  | completed took step rest => exact h.congr rest.registry
  | failed took step rest => exact h.congr rest.registry
  | advanced live registry emptied rest =>
    exact h.advanced live (registry h.kept.sound)
      (emptied ready h.kept.sound) rest.registry
  | abandonedQueue some all rest => exact h.congr rest.registry
  | abandonedBatches some all rest => exact h.drained rest.registry

theorem moves (h : e.Registered) (accounts : e.Accounts) (hmoves : Moves e e') :
    e'.Registered := by
  induction hmoves with
  | refl => exact h
  | tail hmoves hmove ih => exact ih.move (accounts.moves hmoves).ready hmove

theorem answer (h : e.Registered) (accounts : e.Accounts) (call : Call) :
    (e.answer call).2.Registered := by
  have hcase := e.callCase call
  generalize (e.answer call).1 = answer at hcase
  generalize (e.answer call).2 = e' at hcase ⊢
  cases hcase with
  | accepted planned rest => exact h.congr rest.registry
  | moved moves none stored => exact h.moves accounts moves
  | lost loss given =>
    cases loss with
    | lost took step rest => exact h.congr rest.registry
  | ticked time => exact h.congr rfl
  | disturbed d => exact h.congr rfl

/-- An engine of which nothing remains has no batches. -/
theorem batches_of_remaining (h : e.Registered) (none : e.remaining = 0) :
    e.registry.batches = [] ∧ e.batchCount = 0 := by
  have hbatched : e.registry.operations = 0 := Nat.eq_zero_of_add_eq_zero_left none
  have hempty : e.registry.batches = [] := by
    unfold Registry.operations at hbatched
    cases hbatches : e.registry.batches with
    | nil => rfl
    | cons b others =>
      have hb := h.peopled b (hbatches ▸ List.mem_cons_self)
      rw [hbatches, List.map_cons, List.foldr_cons] at hbatched
      exact absurd (List.length_eq_zero_iff.mp
        (Nat.eq_zero_of_add_eq_zero_right hbatched)) hb
  refine ⟨hempty, ?_⟩
  have hcount := congrArg List.length (e.registry.batches_eq_entries)
  rw [hempty, List.length_map, ← h.kept.live] at hcount
  exact hcount.symm

end Registered

end Engine

end Lockstep
