import Lockstep.Proofs.Batch.Formation
import Lockstep.Proofs.Batch.Groups
import Lockstep.Proofs.Operation.Outlook
import Lockstep.Queue
set_option autoImplicit false

/-!
# Operations that wait

An operation that waits for a batch may be stepped on its own.  Until then its
scan stands at the start of its kind; after that it is in nobody's batch but its
own.  A step of a chain without faults never takes a row that it does not pass
on, so the operation stays on course whatever its scan gives.
-/

namespace Lockstep

namespace Operation

/-- The operation can wait: its chain has no fault, and if it was never stepped
its scan stands at the start of its kind. -/
structure Waits (s : Scans) (op : Operation) : Prop where
  sound : Link.IsSound op.pipeline.links
  start : op.isStarted = false →
    op.Unstarted s ∧ (s.cursor op.pipeline.cursor).source = .graph op.pipeline.kind 0

theorem Waits.congr {s s' : Scans} {op : Operation} (h : op.Waits s)
    (hopen : s'.IsOpen op.pipeline.cursor)
    (cursor : s'.cursor op.pipeline.cursor = s.cursor op.pipeline.cursor) :
    op.Waits s' := by
  refine ⟨h.sound, ?_⟩
  intro fresh
  obtain ⟨hunstarted, hsource⟩ := h.start fresh
  refine ⟨⟨hunstarted.counters, hunstarted.rows, hunstarted.finished, hopen, ?_⟩, ?_⟩
  · rw [cursor]
    exact hunstarted.pristine
  · rw [cursor]
    exact hsource

theorem Waits.upcoming {s : Scans} {op : Operation} (h : op.Waits s)
    (fresh : op.isStarted = false) :
    s.upcoming op.pipeline.cursor = s.graph.rowsFrom op.pipeline.kind 0 := by
  obtain ⟨hunstarted, hsource⟩ := h.start fresh
  unfold Scans.upcoming
  rw [hunstarted.pristine.upcoming, hsource]
  rfl

/-- An operation that has found no end counts every step. -/
theorem isStarted_step {op : Operation}
    (h : op.isStarted = true ∨ op.isFinished = false) (cached : Bool) (s : Scans) :
    (op.step cached s).2.1.isStarted = true := by
  have hcounted : (op.pipeline.setCached cached).countStep.isStarted = true :=
    decide_eq_true (Nat.succ_pos _)
  cases hover : op.isOver with
  | true =>
    rw [step_of_isOver hover]
    show (op.pipeline.setCached cached).stop.isStarted = true
    unfold Pipeline.stop
    split
    · rename_i hfinished
      refine h.resolve_right ?_
      intro hlive
      rw [show op.isFinished = true from hfinished] at hlive
      cases hlive
    · exact hcounted
  | false =>
    rw [step_of_not_isOver hover]
    unfold isStarted Pipeline.isStarted take
    dsimp only
    rw [Pipeline.steps_take]
    exact decide_eq_true (Nat.succ_pos _)

/-- What a step of an operation that waits leaves: the operation is on course
and can wait, unless it has found its end, and no other scan has moved. -/
structure Stepped (ex : Expectation) (op : Operation) (s : Scans) (op' : Operation)
    (s' : Scans) :
    Prop where
  moves : Scans.OnlyMoves op.pipeline.cursor s s'
  cursor : op'.pipeline.cursor = op.pipeline.cursor
  sound : Link.IsSound op'.pipeline.links
  started : op'.isStarted = true
  onCourse : op'.OnCourse ex (s'.upcoming op.pipeline.cursor)

theorem Waits.step {ex : Expectation} {op : Operation} {s : Scans} (h : op.Waits s)
    (hopen : s.IsOpen op.pipeline.cursor)
    (course : op.OnCourse ex (s.upcoming op.pipeline.cursor)) :
    Stepped ex op s (op.step false s).2.1 (op.step false s).2.2 ∧
      ((op.step false s).1 = .ok .finished →
        (op.step false s).2.1.isFinished = true) := by
  have hstarted : (op.step false s).2.1.isStarted = true := by
    refine isStarted_step ?_ false s
    cases hfresh : op.isStarted with
    | true => exact .inl rfl
    | false => exact .inr (h.start hfresh).1.finished
  cases hover : op.isOver with
  | true =>
    rw [step_of_isOver hover] at hstarted ⊢
    refine ⟨⟨.refl _ s, op.cursor_stop false, ?_, hstarted, course.stop hover false _⟩, ?_⟩
    · have hlinks : (op.stop false).pipeline.links = op.pipeline.links := by
        unfold stop Pipeline.stop
        split <;> rfl
      rw [hlinks]
      exact h.sound
    · intro _
      exact Pipeline.finished_stop _
  | false =>
    have hasks := Pipeline.asks_of_isSound h.sound hover
    rw [step_of_not_isOver hover, scansAfter_of_asks hasks] at hstarted ⊢
    have hread : s.read op.pipeline.cursor false = s.pull op.pipeline.cursor := rfl
    have hmoves := s.onlyMoves_pull op.pipeline.cursor
    have hcase := Scans.pullCase hopen
    rw [hread] at hstarted ⊢
    dsimp only
    generalize houtcome : (s.pull op.pipeline.cursor).1 = outcome at hcase hstarted ⊢
    cases outcome with
    | error i =>
      have hupcoming : (s.pull op.pipeline.cursor).2.upcoming op.pipeline.cursor =
          s.upcoming op.pipeline.cursor := hcase.unmoved.2.2
      rw [take_failed_of_asks hasks] at hstarted ⊢
      refine ⟨⟨hmoves, rfl, h.sound, hstarted, ?_⟩, fun hended => by cases hended⟩
      rw [hupcoming]
      exact course
    | ok progress =>
      obtain ⟨⟨result, hresult⟩, hlinks⟩ :
        (∃ result, (op.take false (.ok progress)).1 = .ok result) ∧
          Link.IsSound (op.take false (.ok progress)).2.pipeline.links :=
        Pipeline.take_of_isSound (p := op.pipeline.setCached false) h.sound
          hover progress
      have hlive : op.pipeline.finished = false := Pipeline.finished_of_not_isOver hover
      refine ⟨⟨hmoves, op.cursor_take false _, hlinks, hstarted,
        course.take hover hcase.reads hresult⟩, ?_⟩
      intro hended
      exact (Pipeline.finished_take (p := op.pipeline.setCached false) hlive hended).mpr rfl

theorem Truthful.refed {ex : Expectation} {op op' : Operation} (h : op.Truthful ex)
    (refed : Batch.Refed op op') : op'.Truthful ex := by
  obtain ⟨id, cached, rfl⟩ := refed
  exact h

end Operation

/-! ## The front of the queue -/

/-- A batch takes a single operation, or only such as were never stepped. -/
theorem Queue.drainBatch_cases (q : Queue) (max : Nat) :
    (∃ op, (q.drainBatch max).1 = [op]) ∨ ∀ op ∈ (q.drainBatch max).1,
      op.isStarted = false := by
  unfold drainBatch batchSize
  cases q.operations with
  | nil => exact .inr (List.forall_mem_nil _)
  | cons front rest =>
    dsimp only
    split
    · exact .inl ⟨front, rfl⟩
    · have hprefix : ((front :: rest).take max).takeWhile (fun op => !op.isStarted) <+:
          front :: rest :=
        (List.takeWhile_prefix _).trans (List.take_prefix _ _)
      rw [← List.prefix_iff_eq_take.mp hprefix]
      refine .inr ?_
      intro op hop
      simpa using List.all_eq_true.mp List.all_takeWhile op hop

/-- A batch formed of such operations is on course, fed by the cursor of one of them. -/
theorem Batch.inStep_of_form {ex : Expectation} {s : Scans} {name : String}
    {ops : List Operation} {b : Batch} (form : Batch.form name ops s = .ok b)
    (front : (∃ op, ops = [op]) ∨ ∀ op ∈ ops, op.isStarted = false)
    (waits : ∀ op ∈ ops, op.Waits s)
    (course : ∀ op ∈ ops, op.OnCourse ex (s.upcoming op.pipeline.cursor)) :
    ∃ op ∈ ops, InStep ex op.pipeline.cursor s b.members := by
  cases ops with
  | nil => cases form
  | cons first others =>
    obtain ⟨hmembers, hkinds⟩ := grouped_of_form_ok form
    refine ⟨first, List.mem_cons_self, ?_⟩
    rw [hmembers]
    rcases front with ⟨op, hsingle⟩ | hfresh
    · obtain ⟨rfl, rfl⟩ := List.cons.inj hsingle
      exact List.forall_mem_singleton.mpr ⟨rfl, course first List.mem_cons_self⟩
    · refine inStep_grouped (fun op hop => ((waits op hop).start (hfresh op hop)).1) ?_
      intro op hop
      have hkind : op.pipeline.kind = first.pipeline.kind := by
        rcases List.mem_cons.mp hop with rfl | hother
        · rfl
        · exact hkinds op hother
      have hcourse := course op hop
      have hunstarted := ((waits op hop).start (hfresh op hop)).1
      rw [(waits op hop).upcoming (hfresh op hop), hkind] at hcourse
      rw [(waits first List.mem_cons_self).upcoming (hfresh first List.mem_cons_self),
        ← hunstarted.promise op.pipeline.cursor op.pipeline.cached]
      exact hcourse

end Lockstep
