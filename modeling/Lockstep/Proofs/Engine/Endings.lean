import Lockstep.Proofs.Engine.Lossless
set_option autoImplicit false

/-!
# Completed means at the end

An operation is delivered as completed exactly if it has found the end of its
rows, whoever delivers it: a round, a batch that fails, an engine that steps it
on its own, or one that gives up.  For those that give up on operations in the
queue this rests on no operation there being at its end, since one that finds
its end on its own leaves the queue with that very step.
-/

namespace Lockstep

/-- A step finds the end of an operation exactly if it says so. -/
theorem Operation.isFinished_step {op op' : Operation} {cached : Bool} {s s' : Scans}
    {result : Except Interruption StepResult} (live : op.isFinished = false)
    (h : op.step cached s = (result, op', s')) :
    op'.isFinished = true ↔ result = .ok .finished := by
  cases hover : op.isOver with
  | true =>
    rw [step_of_isOver hover] at h
    cases h
    exact iff_of_true (Pipeline.finished_stop _) rfl
  | false =>
    rw [step_of_not_isOver hover] at h
    obtain ⟨hresult, htook, -⟩ := h
    cases houtcome : (op.take cached (s.read op.pipeline.cursor cached).1).1 with
    | ok result =>
      have hfinished :=
        Pipeline.finished_take (p := op.pipeline.setCached cached) live houtcome
      exact hfinished.trans (by simp)
    | error i =>
      have hsame :=
        (Pipeline.take_interrupted (p := op.pipeline.setCached cached) houtcome).2
      exact iff_of_false (Bool.eq_false_iff.mp (hsame.trans live)) (by simp)

/-- Completed exactly if the operation has found its end. -/
def Delivery.Fits (d : Delivery) : Prop :=
  d.status = .completed ↔ d.operation.isFinished = true

namespace Delivery

theorem fits_completed {op : Operation} (finished : op.isFinished = true) :
    Fits ⟨op, .completed⟩ :=
  iff_of_true rfl finished

theorem fits_failed {op : Operation} (live : op.isFinished = false) (reason : String) :
    Fits ⟨op, .failed reason⟩ :=
  iff_of_false Status.noConfusion (Bool.eq_false_iff.mp live)

end Delivery

namespace Batch

theorem fits_of_mem_completions {members : List Operation} {d : Delivery}
    (h : d ∈ completions (members.filter Operation.isFinished)) : d.Fits := by
  obtain ⟨op, hop, rfl⟩ := List.mem_map.mp h
  exact Delivery.fits_completed (List.mem_filter.mp hop).2

theorem fits_of_mem_failures {reason : Failure} {members : List Operation}
    {d : Delivery} (h : d ∈ failures reason members) : d.Fits := by
  obtain ⟨op, hop, rfl⟩ := List.mem_map.mp h
  cases hfinished : op.isFinished with
  | true => exact Delivery.fits_completed hfinished
  | false => exact Delivery.fits_failed hfinished _

theorem fits_failAll (receiver : Receiver) (b : Batch) (reason : Failure) (s : Scans) :
    ∀ d ∈ (failAll receiver b reason s).deliveries, d.Fits :=
  fun _ hd => fits_of_mem_failures (mem_of_mem_failAll hd)

/-- Whatever an advance delivers fits. -/
theorem fits_advance (receiver : Receiver) (maxRetries : UInt32) (rounds : Nat)
    (b : Batch) (s : Scans) :
    ∀ d ∈ (advance receiver maxRetries rounds b s).deliveries, d.Fits := by
  induction rounds generalizing b s with
  | zero => exact List.forall_mem_nil _
  | succ rounds ih =>
    rw [advance]
    split
    · exact List.forall_mem_nil _
    · generalize round b.members s = result
      obtain ⟨ending, members, s'⟩ := result
      cases ending with
      | completed =>
        have htaken : ∀ d ∈
          (deliver receiver (completions (members.filter Operation.isFinished))).1,
            d.Fits := fun d hd => fits_of_mem_completions (mem_of_mem_deliver hd)
        dsimp only
        generalize deliver receiver
          (completions (members.filter Operation.isFinished)) = delivered
          at htaken
        obtain ⟨taken, crash⟩ := delivered
        cases crash with
        | some crash => exact htaken
        | none => exact List.forall_mem_append.mpr ⟨htaken, ih _ _⟩
      | aborted f =>
        dsimp only
        split
        · exact List.forall_mem_nil _
        · split
          · exact fits_failAll _ _ _ _
          · exact List.forall_mem_nil _
      | broken f => exact fits_failAll _ _ _ _
      | crashed crash => exact List.forall_mem_nil _

end Batch

theorem Scheduler.fits_guardedAdvance (sch : Scheduler) (receiver : Receiver)
    (b : Batch) (s : Scans) :
    ∀ d ∈ (sch.guardedAdvance receiver b s).deliveries, d.Fits := by
  have hadvance := Batch.fits_advance receiver sch.maxRetries sch.stride b s
  unfold guardedAdvance
  dsimp only
  split
  · exact List.forall_mem_append.mpr ⟨hadvance, Batch.fits_failAll _ _ _ _⟩
  · exact hadvance

theorem Queue.mem_of_takeAt? {q rest : Queue} {index : Nat} {op : Operation}
    (h : q.takeAt? index = some (op, rest)) :
    op ∈ q.operations ∧ ∀ other ∈ rest.operations, other ∈ q.operations :=
  List.forall_mem_cons.mp fun _ hother => (perm_takeAt? h).1.subset hother

namespace Engine

variable {e e' : Engine}

/-- No operation that waits is at its end, and every delivery fits. -/
structure Ends (e : Engine) : Prop where
  waiting : ∀ op ∈ e.queue.operations, op.isFinished = false
  delivered : ∀ d ∈ e.delivered, d.Fits

namespace Ends

/-- Operations may leave the queue, or come into it before their end, and
deliveries that fit may be taken. -/
theorem receives {e₁ : Engine} {taken : List Delivery} (h : e.Ends)
    (rest : Receives taken e₁ e')
    (waiting : ∀ op ∈ e₁.queue.operations, op ∈ e.queue.operations ∨
      op.isFinished = false) (delivered : e₁.delivered = e.delivered)
    (fits : ∀ d ∈ taken, d.Fits) : e'.Ends := by
  refine ⟨?_, ?_⟩
  · rw [rest.queue]
    exact fun op hop => (waiting op hop).elim (h.waiting op) id
  · rw [rest.delivered, delivered]
    exact List.forall_mem_append.mpr
      ⟨fun d hd => fits d (List.mem_reverse.mp hd), h.delivered⟩

theorem fits_failed {ops operations : List Operation}
    (live : ∀ op ∈ ops, op.isFinished = false)
    (refed : List.Forall₂ Batch.Refed ops operations) {reason : String}
    {taken : List Delivery}
    (some : taken <+: operations.map fun op => ⟨op, .failed reason⟩) :
    ∀ d ∈ taken, d.Fits := by
  intro d hd
  obtain ⟨op', hop', rfl⟩ := List.mem_map.mp (some.subset hd)
  obtain ⟨op, hop, _, _, rfl⟩ := Batch.exists_refed refed hop'
  exact Delivery.fits_failed (live op hop) reason

/-- Every move keeps the endings right. -/
theorem move (h : e.Ends) (hmove : Move e e') : e'.Ends := by
  cases hmove with
  | idle rest => exact h.receives rest (fun _ => .inl) rfl (List.forall_mem_nil _)
  | formed form insert rest =>
    exact h.receives rest (fun _ hop => .inl (e.mem_front (.inr hop))) rfl
      (List.forall_mem_nil _)
  | refused form some all rest =>
    refine h.receives rest (fun _ hop => .inl (e.mem_front (.inr hop))) rfl ?_
    exact fits_failed (fun op hop => h.waiting op (e.mem_front (.inl hop)))
      (Batch.refed_of_form_error form) some
  | @stepped index op op' queue s result took step going unfinished rest =>
    obtain ⟨hop, hothers⟩ := Queue.mem_of_takeAt? took
    have hlive := h.waiting op hop
    refine h.receives rest (fun other hother => ?_) rfl (List.forall_mem_nil _)
    rcases List.mem_cons.mp ((queue.perm_reinsert index op').subset hother)
      with rfl | hother
    · exact .inr
        (Bool.eq_false_iff.mpr
          (mt (Operation.isFinished_step hlive step).mp unfinished))
    · exact .inl (hothers other hother)
  | @completed index op op' queue s took step rest =>
    obtain ⟨hop, hothers⟩ := Queue.mem_of_takeAt? took
    have hlive := h.waiting op hop
    refine h.receives rest (fun other hother => .inl (hothers other hother)) rfl ?_
    exact List.forall_mem_singleton.mpr
      (Delivery.fits_completed ((Operation.isFinished_step hlive step).mpr rfl))
  | @failed index op op' queue s f took step rest =>
    obtain ⟨hop, hothers⟩ := Queue.mem_of_takeAt? took
    have hlive := h.waiting op hop
    refine h.receives rest (fun other hother => .inl (hothers other hother)) rfl ?_
    have hnot := mt (Operation.isFinished_step hlive step).mp (by simp)
    exact List.forall_mem_singleton.mpr
      (Delivery.fits_failed (Bool.eq_false_iff.mpr hnot) _)
  | advanced live registry emptied rest =>
    exact h.receives rest (fun _ => .inl) rfl (Scheduler.fits_guardedAdvance _ _ _ _)
  | abandonedQueue some all rest =>
    refine h.receives rest (List.forall_mem_nil _) rfl ?_
    exact fits_failed h.waiting
      (List.forall₂_same.mpr fun op _ => Batch.refed_self op) some
  | abandonedBatches some all rest =>
    refine h.receives rest (fun _ => .inl) rfl (fun d hd => ?_)
    obtain ⟨b, -, hmem⟩ := some d hd
    exact Batch.fits_of_mem_failures hmem

theorem moves (h : e.Ends) (hmoves : Moves e e') : e'.Ends := by
  induction hmoves with
  | refl => exact h
  | tail _ hmove ih => exact ih.move hmove

/-- Every call leaves an engine whose operations wait before their end: so does
an accepted query. -/
theorem answer (h : e.Ends) (call : Call) : (e.answer call).2.Ends := by
  have hcase := e.callCase call
  generalize (e.answer call).1 = answer at hcase
  generalize (e.answer call).2 = e' at hcase ⊢
  cases hcase with
  | accepted planned rest =>
    refine h.receives rest (fun op hop => ?_) rfl (List.forall_mem_nil _)
    rcases List.mem_append.mp hop with hop | hop
    · exact .inl hop
    · rw [List.mem_singleton.mp hop]
      exact .inr rfl
  | moved moves none stored => exact h.moves moves
  | lost loss given =>
    cases loss with
    | lost took step rest =>
      obtain ⟨-, hothers⟩ := Queue.mem_of_takeAt? took
      exact h.receives rest (fun other hother => .inl (hothers other hother)) rfl
        (List.forall_mem_nil _)
  | ticked time => exact ⟨h.waiting, h.delivered⟩
  | disturbed d => exact ⟨h.waiting, h.delivered⟩

theorem answerAll (h : e.Ends) (calls : List Call) : (e.answerAll calls).2.Ends := by
  induction calls generalizing e with
  | nil => exact h
  | cons call calls ih => exact ih (h.answer call)

theorem fresh (config : Config) (names : Names) (graph : Graph) :
    (Engine.fresh config names graph).Ends :=
  ⟨List.forall_mem_nil _, List.forall_mem_nil _⟩

end Ends

end Engine

end Lockstep
