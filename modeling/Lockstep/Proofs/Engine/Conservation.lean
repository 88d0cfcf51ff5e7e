import Lockstep.Proofs.Batch.Conservation
import Lockstep.Proofs.Batch.Formation
import Lockstep.Proofs.Engine.Call
import Mathlib.Data.List.Perm.Basic
set_option autoImplicit false

/-!
# An engine accounts for every operation

Each number that was given out is that of one operation, which waits, is in a
batch or was delivered.  Every move keeps this so, since it moves operations
from one of the three places to the next and drops none on the way; only
deliveries are never taken back.
-/

namespace Lockstep

/-! ## Queues -/

namespace Queue

theorem perm_takeAt? {q rest : Queue} {index : Nat} {op : Operation}
    (h : q.takeAt? index = some (op, rest)) :
    (op :: rest.operations).Perm q.operations ∧ rest.nextSequence = q.nextSequence := by
  obtain ⟨hget, rfl⟩ := takeAt?_eq_some_iff.mp h
  obtain ⟨hindex, rfl⟩ := List.getElem?_eq_some_iff.mp hget
  exact ⟨List.getElem_cons_eraseIdx_perm hindex, rfl⟩

theorem perm_reinsert (q : Queue) (index : Nat) (op : Operation) :
    (q.reinsert index op).operations.Perm (op :: q.operations) :=
  List.perm_insertIdx op q.operations (Nat.min_le_right _ _)

end Queue

namespace Engine

/-! ## Numbers -/

/-- The numbers of the operations that wait. -/
def waiting (e : Engine) : List Nat := e.queue.operations.map Operation.sequence

/-- The numbers of the operations in live batches, batch by batch. -/
def batched (e : Engine) : List Nat :=
  e.registry.batches.flatMap fun b => b.members.map Operation.sequence

/-- The numbers of the operations that were delivered. -/
def completed (e : Engine) : List Nat := e.delivered.map (·.operation.sequence)

/-- Every number given out is that of one operation that waits, is in a batch or
was delivered, and the engine can go on: its ring is sound, no batch is locked
and its ledger does not crash. -/
structure Accounts (e : Engine) : Prop where
  sound : e.registry.Sound
  unlocked : ∀ b ∈ e.registry.batches, b.locked = false
  ready : e.receiver = none
  numbers : (e.waiting ++ e.batched ++ e.completed).Perm
    (List.range e.queue.nextSequence)

variable {e e' : Engine}

theorem completed_of_receives {taken : List Delivery} (h : Receives taken e e') :
    e'.completed.Perm (taken.map (·.operation.sequence) ++ e.completed) := by
  unfold completed
  rw [h.delivered, List.map_append, List.map_reverse]
  exact (List.reverse_perm _).append_right _

/-- An engine that has moved operations and delivered some accounts for all if
nothing was dropped. -/
theorem Accounts.of_receives {e₁ : Engine} {taken : List Delivery}
    (rest : Receives taken e₁ e') (sound : e₁.registry.Sound)
    (unlocked : ∀ b ∈ e₁.registry.batches, b.locked = false)
    (ready : e₁.receiver = none)
    (numbers :
      (e₁.waiting ++ e₁.batched ++
        (taken.map (·.operation.sequence) ++ e₁.completed)).Perm
        (List.range e₁.queue.nextSequence)) : e'.Accounts := by
  have hwaiting : e'.waiting = e₁.waiting := by
    unfold waiting
    rw [rest.queue]
  have hbatched : e'.batched = e₁.batched := by
    unfold batched
    rw [rest.registry]
  refine ⟨?_, ?_, rest.receiver.trans ready, ?_⟩
  · rw [rest.registry]
    exact sound
  · rw [rest.registry]
    exact unlocked
  · rw [hwaiting, hbatched, rest.queue]
    exact ((completed_of_receives rest).append_left _).trans numbers

/-! ## Moves -/

theorem map_sequence_front (e : Engine) :
    e.waiting = e.front.1.map Operation.sequence ++
      e.front.2.operations.map Operation.sequence := by
  unfold waiting
  rw [← List.map_append]
  exact congrArg (List.map Operation.sequence) (e.queue.drainBatch_append _).symm

theorem map_sequence_failed {reason : String} {ops : List Operation} :
    (ops.map fun op => (⟨op, .failed reason⟩ : Delivery)).map (·.operation.sequence) =
      ops.map Operation.sequence := by
  rw [List.map_map]
  rfl

/-- Forming a batch moves its operations from the queue to the registry. -/
theorem Accounts.formed (h : e.Accounts) {name : String} {b : Batch} {index : Nat}
    {r : Registry} (form : Batch.form name e.front.1 e.scans = .ok b)
    (insert : e.registry.insert? b = some (index, r))
    (rest : Receives [] { e with queue := e.front.2, registry := r } e') :
    e'.Accounts := by
  obtain ⟨hrefed, hunlocked⟩ := Batch.refed_of_form_ok form
  obtain ⟨hsound, hbatches⟩ := Registry.batches_insert? h.sound insert
  refine .of_receives rest hsound ?_ h.ready ?_
  · dsimp only
    rw [hbatches]
    exact List.forall_mem_append.mpr
      ⟨h.unlocked, List.forall_mem_singleton.mpr hunlocked⟩
  · refine .trans ?_ h.numbers
    have hbatched : ({ e with queue := e.front.2, registry := r } : Engine).batched =
        e.batched ++ e.front.1.map Operation.sequence := by
      unfold batched
      dsimp only
      rw [hbatches, List.flatMap_append, List.flatMap_singleton,
        Batch.map_sequence_of_refed hrefed]
    rw [hbatched, map_sequence_front e, List.perm_iff_count]
    intro n
    simp only [List.count_append, List.map_nil, List.nil_append]
    unfold waiting completed
    dsimp only
    omega

theorem Accounts.refused (h : e.Accounts) {name : String} {f : Failure}
    {operations : List Operation}
    (form : Batch.form name e.front.1 e.scans = .error ⟨f, operations⟩)
    (rest : Receives (operations.map fun op => ⟨op, .failed f.display⟩)
      { e with queue := e.front.2 } e') : e'.Accounts := by
  have hrefed := Batch.refed_of_form_error form
  refine .of_receives rest h.sound h.unlocked h.ready (.trans ?_ h.numbers)
  rw [map_sequence_failed, Batch.map_sequence_of_refed hrefed, map_sequence_front e,
    List.perm_iff_count]
  intro n
  simp only [List.count_append]
  unfold waiting batched completed
  dsimp only
  omega

/-- An operation that was stepped and put back still waits. -/
theorem Accounts.stepped (h : e.Accounts) {index : Nat} {op op' : Operation}
    {queue : Queue} {s : Scans} {result : Except Interruption StepResult}
    (took : e.queue.takeAt? index = some (op, queue))
    (step : op.step false e.scans = (result, op', s))
    (rest : Receives [] { e with queue := queue.reinsert index op', scans := s } e') :
    e'.Accounts := by
  obtain ⟨htook, hnext⟩ := Queue.perm_takeAt? took
  have hsequence := Batch.sequence_step op false e.scans
  rw [step] at hsequence
  refine .of_receives rest h.sound h.unlocked h.ready ?_
  have hwaiting : ((queue.reinsert index op').operations.map Operation.sequence).Perm
      e.waiting := by
    refine ((queue.perm_reinsert index op').map _).trans ?_
    rw [List.map_cons, hsequence]
    exact htook.map Operation.sequence
  have hnext' : (queue.reinsert index op').nextSequence = e.queue.nextSequence := hnext
  dsimp only
  rw [hnext']
  exact ((hwaiting.append_right _).append_right _).trans h.numbers

/-- An operation that was stepped and delivered has left the queue. -/
theorem Accounts.left (h : e.Accounts) {index : Nat} {op op' : Operation}
    {queue : Queue} {s : Scans} {result : Except Interruption StepResult}
    {status : Status} (took : e.queue.takeAt? index = some (op, queue))
    (step : op.step false e.scans = (result, op', s))
    (rest : Receives [⟨op', status⟩] { e with queue := queue, scans := s } e') :
    e'.Accounts := by
  obtain ⟨htook, hnext⟩ := Queue.perm_takeAt? took
  have hsequence := Batch.sequence_step op false e.scans
  rw [step] at hsequence
  refine .of_receives rest h.sound h.unlocked h.ready ?_
  have hwaiting :
      e.waiting.Perm (op'.sequence :: queue.operations.map Operation.sequence) := by
    have hmapped := htook.symm.map Operation.sequence
    rw [List.map_cons, ← hsequence] at hmapped
    exact hmapped
  dsimp only
  rw [hnext]
  refine .trans ?_ h.numbers
  refine .trans ?_ ((hwaiting.symm.append_right _).append_right _)
  rw [List.perm_iff_count]
  intro n
  unfold waiting batched completed
  simp only [List.count_append, List.count_cons, List.map_cons, List.map_nil,
    List.cons_append, List.nil_append]
  omega

/-- An advance delivers some of the members of its batch and keeps the others. -/
theorem Accounts.advanced (h : e.Accounts) {index : Nat} {b : Batch} {r : Registry}
    {a : Advance} (live : e.registry.get? index = some b)
    (accounted : (Batch.accounted a).Perm (b.members.map Operation.sequence))
    (locked : a.batch.locked = b.locked)
    (registry : e.registry.Resettled index a.batch r)
    (rest : Receives a.deliveries { e with registry := r, scans := a.scans } e') :
    e'.Accounts := by
  have hunlocked : ∀ b' ∈ r.batches, b'.locked = false :=
    registry.forall_batches live h.unlocked fun _ =>
      locked.trans (h.unlocked b (Registry.mem_batches_of_get? live))
  obtain ⟨hsound, -, left, hbatches, hleft⟩ := registry
  have hsplit := Registry.batches_of_get? live
  have hleft' : left.flatMap (fun b => b.members.map Operation.sequence) =
      a.batch.members.map Operation.sequence := by
    rcases hleft with ⟨rfl, hempty⟩ | ⟨retryAt, rfl⟩
    · rw [hempty]
      rfl
    · exact List.flatMap_singleton ..
  refine .of_receives rest hsound hunlocked h.ready (.trans ?_ h.numbers)
  · have hcount := List.perm_iff_count.mp accounted
    rw [List.perm_iff_count]
    intro n
    specialize hcount n
    unfold Batch.accounted at hcount
    unfold waiting batched completed
    dsimp only
    rw [hsplit, hbatches]
    simp only [List.flatMap_append, List.flatMap_cons, List.count_append, hleft'] at hcount ⊢
    omega

theorem Accounts.abandonedQueue (h : e.Accounts) {reason : String}
    (rest : Receives (e.queue.operations.map fun op => ⟨op, .failed reason⟩)
      { e with queue := e.queue.drainAll.2 } e') : e'.Accounts := by
  refine .of_receives rest h.sound h.unlocked h.ready (.trans ?_ h.numbers)
  rw [map_sequence_failed, List.perm_iff_count]
  intro n
  unfold waiting batched completed Queue.drainAll
  simp only [List.count_append, List.map_nil, List.count_nil]
  omega

/-- Abandoning the batches delivers all their members. -/
theorem Accounts.abandonedBatches (h : e.Accounts) {reason : Failure}
    (rest : Receives
      (e.registry.batches.flatMap fun b => Batch.failures reason b.members)
      { e with registry := e.registry.drain.2 } e') : e'.Accounts := by
  obtain ⟨-, hsound, hbatches⟩ := Registry.batches_drain h.sound
  refine .of_receives rest hsound ?_ h.ready (.trans ?_ h.numbers)
  · dsimp only
    rw [hbatches]
    exact List.forall_mem_nil _
  · have hdelivered :
      (e.registry.batches.flatMap fun b => Batch.failures reason b.members).map
        (·.operation.sequence) = e.batched := by
      unfold batched
      rw [List.map_flatMap]
      exact congrArg (e.registry.batches.flatMap ·)
        (funext fun b => Batch.map_sequence_failures reason b.members)
    rw [hdelivered, List.perm_iff_count]
    intro n
    unfold waiting batched completed
    dsimp only
    rw [hbatches]
    simp only [List.count_append, List.flatMap_nil, List.count_nil]
    omega

/-- What no move changes: the settings, the clock, how many numbers were given
out, and what was delivered. -/
structure Carries (e e' : Engine) : Prop where
  config : e'.config = e.config
  retention : e'.ledger.retention = e.ledger.retention
  next : e'.queue.nextSequence = e.queue.nextSequence
  delivered : e.delivered <:+ e'.delivered

theorem Carries.of_receives {e₁ : Engine} {taken : List Delivery}
    (rest : Receives taken e₁ e') (config : e₁.config = e.config)
    (retention : e₁.ledger.retention = e.ledger.retention)
    (next : e₁.queue.nextSequence = e.queue.nextSequence)
    (delivered : e₁.delivered = e.delivered) :
    Carries e e' where
  config := rest.config.trans config
  retention := rest.retention.trans retention
  next := (congrArg Queue.nextSequence rest.queue).trans next
  delivered := ⟨taken.reverse, by rw [rest.delivered, delivered]⟩

theorem Carries.trans {e'' : Engine} (h : Carries e e') (h' : Carries e' e'') :
    Carries e e'' :=
  ⟨h'.config.trans h.config, h'.retention.trans h.retention, h'.next.trans h.next,
    h.delivered.trans h'.delivered⟩

theorem Move.carries (h : Move e e') : Carries e e' := by
  cases h with
  | idle rest => exact .of_receives rest rfl rfl rfl rfl
  | formed form insert rest => exact .of_receives rest rfl rfl rfl rfl
  | refused form some all rest => exact .of_receives rest rfl rfl rfl rfl
  | stepped took step going unfinished rest =>
    exact .of_receives rest rfl rfl (Queue.perm_takeAt? took).2 rfl
  | completed took step rest =>
    exact .of_receives rest rfl rfl (Queue.perm_takeAt? took).2 rfl
  | failed took step rest =>
    exact .of_receives rest rfl rfl (Queue.perm_takeAt? took).2 rfl
  | advanced live registry emptied rest => exact .of_receives rest rfl rfl rfl rfl
  | abandonedQueue some all rest => exact .of_receives rest rfl rfl rfl rfl
  | abandonedBatches some all rest => exact .of_receives rest rfl rfl rfl rfl

/-- A loss gives out no number. -/
theorem Loss.next (h : Loss e e') : e'.queue.nextSequence = e.queue.nextSequence := by
  cases h with
  | lost took step rest =>
    exact (congrArg Queue.nextSequence rest.queue).trans (Queue.perm_takeAt? took).2

theorem carries_of_moves (h : Moves e e') : Carries e e' := by
  induction h with
  | refl => exact .of_receives (.refl e) rfl rfl rfl rfl
  | tail _ hmove ih => exact ih.trans hmove.carries

/-- Every move accounts for all operations. -/
theorem Accounts.move (h : e.Accounts) (hmove : Move e e') : e'.Accounts := by
  cases hmove with
  | idle rest => exact .of_receives rest h.sound h.unlocked h.ready h.numbers
  | formed form insert rest => exact h.formed form insert rest
  | refused form some all rest =>
    rw [all h.ready] at rest
    exact h.refused form rest
  | stepped took step going unfinished rest => exact h.stepped took step rest
  | completed took step rest => exact h.left took step rest
  | failed took step rest => exact h.left took step rest
  | advanced live registry emptied rest =>
    rw [h.ready] at registry rest
    exact h.advanced live (Scheduler.accounted_guardedAdvance _ _ _)
      (Scheduler.locked_guardedAdvance ..) (registry h.sound) rest
  | abandonedQueue some all rest =>
    rw [all h.ready] at rest
    exact h.abandonedQueue rest
  | abandonedBatches some all rest =>
    rw [all h.ready h.unlocked] at rest
    exact h.abandonedBatches rest

theorem Accounts.moves (h : e.Accounts) (hmoves : Moves e e') : e'.Accounts := by
  induction hmoves with
  | refl => exact h
  | tail _ hmove ih => exact ih.move hmove

end Engine

end Lockstep
