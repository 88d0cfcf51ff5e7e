import Lockstep.Proofs.Batch.Round
import Lockstep.Proofs.Pipeline.Alone
set_option autoImplicit false

/-!
# Rounds over a quiet scan

While no read of the scan fails and the scan has not come to its end, a round does
to every member what a fresh step of that member alone would do, whoever pulls and
whoever reads.  The scan is pulled once, or not at all if every member is over.
-/

namespace Lockstep

namespace Pipeline

theorem receive_setCached (p : Pipeline) (cached : Bool) (row : Value) :
    (p.setCached cached).receive row =
      ((p.receive row).1, (p.receive row).2.setCached cached) := by
  unfold receive setCached
  dsimp only
  split <;> rfl

theorem conclude_setCached (p : Pipeline) (cached : Bool)
    (answer : Except Interruption Unit) :
    (p.setCached cached).conclude answer =
      ((p.conclude answer).1, (p.conclude answer).2.setCached cached) := by
  cases answer <;> rfl

theorem take_setCached (p : Pipeline) (cached : Bool)
    (outcome : Except Interruption Progress) :
    (p.setCached cached).take outcome =
      ((p.take outcome).1, (p.take outcome).2.setCached cached) := by
  have hanswer : (p.setCached cached).answer? = p.answer? := rfl
  have hcount : (p.setCached cached).countStep = p.countStep.setCached cached := rfl
  unfold take
  rw [hanswer, hcount]
  split
  · exact p.countStep.conclude_setCached cached _
  · unfold accept
    split
    · rfl
    · exact p.countStep.conclude_setCached cached _
    · rfl
    · exact p.countStep.receive_setCached cached _

theorem stop_setCached (p : Pipeline) (cached : Bool) :
    (p.setCached cached).stop = p.stop.setCached cached := by
  unfold stop
  split
  · rename_i hfinished
    exact (if_pos hfinished).symm ▸ rfl
  · rename_i hlive
    exact (if_neg hlive).symm ▸ rfl

end Pipeline

namespace Operation

/-- The operation, set to pull its scan itself. -/
def fresh (op : Operation) : Operation :=
  { op with pipeline := op.pipeline.setCached false }

/-- The operation after a fresh step. -/
def stepped (s : Scans) (op : Operation) : Operation := (op.step false s).2.1

theorem fresh_stop (op : Operation) (cached : Bool) :
    (op.stop cached).fresh = op.stop false := by
  unfold stop fresh
  dsimp only
  rw [Pipeline.stop_setCached, Pipeline.stop_setCached]
  rfl

theorem fresh_take (op : Operation) (cached : Bool)
    (outcome : Except Interruption Progress) :
    (op.take cached outcome).2.fresh = (op.take false outcome).2 := by
  have htake := fun cached => op.pipeline.take_setCached cached outcome
  unfold take fresh
  dsimp only
  rw [htake, htake]
  rfl

theorem stepped_fresh (s : Scans) (op : Operation) :
    op.fresh.stepped s = op.stepped s := rfl

/-- An operation without faults that is fed by the cursor. -/
structure Steady (id : CursorId) (op : Operation) : Prop where
  cursor : op.pipeline.cursor = id
  sound : Link.IsSound op.pipeline.links

theorem Steady.exists_take {id : CursorId} {op : Operation} (h : op.Steady id)
    (live : op.isOver = false) (cached : Bool) (progress : Progress) :
    ∃ result, op.take cached (.ok progress) =
      (.ok result, (op.take cached (.ok progress)).2) := by
  obtain ⟨result, hresult⟩ : ∃ result, (op.take cached (.ok progress)).1 = .ok result :=
    (Pipeline.take_of_isSound (p := op.pipeline.setCached cached) h.sound live progress).1
  exact ⟨result, Prod.ext hresult rfl⟩

theorem Steady.scansAfter {id : CursorId} {op : Operation} (h : op.Steady id)
    (live : op.isOver = false) (s : Scans) : op.scansAfter false s = (s.pull id).2 := by
  rw [op.scansAfter_of_asks (Pipeline.asks_of_isSound h.sound live), h.cursor]

theorem stepped_of_isOver {op : Operation} (h : op.isOver = true) (s : Scans) :
    op.stepped s = op.stop false := by
  unfold stepped
  rw [op.step_of_isOver h]

theorem stepped_of_live {id : CursorId} {op : Operation} {s : Scans}
    (h : op.isOver = false) (hid : op.pipeline.cursor = id) :
    op.stepped s = (op.take false (s.pull id).1).2 := by
  subst hid
  unfold stepped
  rw [op.step_of_not_isOver h]
  rfl

end Operation

namespace Batch

open Operation (Steady)

variable {id : CursorId} {before : Nat} {s : Scans} {ops : List Operation}

/-- What the pulling part of a round over a quiet scan comes to: the members in
front have made the step that they would make alone. -/
inductive PullUnison (id : CursorId) (s : Scans) (ops : List Operation) : Pulled → Prop
  /-- every member was over -/
  | idle {stepped : List Operation} (stopped : ∀ op ∈ ops, op.isOver = true)
      (same : stepped.map Operation.fresh = ops.map (Operation.stepped s)) :
      PullUnison id s ops ⟨none, stepped, [], s⟩
  /-- some member has pulled, and others have yet to read -/
  | moved {stepped waiting : List Operation} (live : ∃ op ∈ ops, op.isOver = false)
      (steady : ∀ op ∈ waiting, op.Steady id)
      (same : stepped.map Operation.fresh ++ waiting.map (Operation.stepped s) =
        ops.map (Operation.stepped s)) :
      PullUnison id s ops ⟨none, stepped, waiting, (s.pull id).2⟩

theorem pullUnison_pullPhase (quiet : s.IsQuiet id)
    (unexhausted : (s.cursor id).isExhausted = false)
    (hbefore : (s.cursor id).pulls = before) (steady : ∀ op ∈ ops, op.Steady id) :
    PullUnison id s ops (pullPhase id before ops s) := by
  induction ops with
  | nil => exact .idle (List.forall_mem_nil _) rfl
  | cons op ops ih =>
    obtain ⟨hop, hops⟩ := List.forall_mem_cons.mp steady
    cases hover : op.isOver with
    | true =>
      have hunmoved : scanMoved id before s = false := by
        unfold scanMoved
        rw [hbefore, unexhausted]
        simp
      have hstop : (op.stop false).fresh = op.stepped s := by
        rw [Operation.fresh_stop, Operation.stepped_of_isOver hover]
      have hrest := ih hops
      rw [pullPhase_of_isOver hover, if_pos hunmoved]
      generalize pullPhase id before ops s = pulled at hrest
      cases hrest with
      | idle stopped same =>
        refine .idle (List.forall_mem_cons.mpr ⟨hover, stopped⟩) ?_
        rw [List.map_cons, List.map_cons, hstop, same]
      | moved live waiting same =>
        obtain ⟨pulling, hpulling, hlive⟩ := live
        refine .moved ⟨pulling, List.mem_cons_of_mem _ hpulling, hlive⟩ waiting ?_
        rw [List.map_cons, List.map_cons, hstop, List.cons_append, same]
    | false =>
      obtain ⟨⟨progress, hpull⟩, -⟩ := quiet.pull
      obtain ⟨result, htake⟩ := hop.exists_take hover false progress
      have hmoved := scanMoved_pull quiet.isOpen hbefore hpull
      have hstepped := Operation.stepped_of_live (s := s) hover hop.cursor
      rw [hpull] at hstepped
      rw [pullPhase_of_live hover hop.cursor (hop.scansAfter hover s), hpull,
        htake, hmoved]
      simp only [Bool.true_eq_false, and_false, if_false]
      refine .moved ⟨op, List.mem_cons_self, hover⟩ hops ?_
      rw [List.map_singleton, Operation.fresh_take, List.map_cons, hstepped]
      rfl

/-- Members that read what the pull gave make the step that they would make alone. -/
theorem readPhase_unison {progress : Progress} (hopen : s.IsOpen id)
    (hpull : (s.pull id).1 = .ok progress) (steady : ∀ op ∈ ops, op.Steady id) :
    (readPhase ops (s.pull id).2).1 = .completed ∧
      (readPhase ops (s.pull id).2).2.1.map Operation.fresh =
        ops.map (Operation.stepped s) := by
  have hcached : ((s.pull id).2.cursor id).readCached = .ok progress := by
    rw [Scans.cursor_pull_self hopen]
    exact Cursor.readCached_of_pull (Prod.ext hpull rfl)
  induction ops with
  | nil => exact ⟨rfl, rfl⟩
  | cons op ops ih =>
    obtain ⟨hop, hops⟩ := List.forall_mem_cons.mp steady
    obtain ⟨hend, hrest⟩ := ih hops
    cases hover : op.isOver with
    | true =>
      rw [readPhase_of_isOver hover]
      refine ⟨hend, ?_⟩
      rw [List.map_cons, List.map_cons, hrest, Operation.fresh_stop,
        Operation.stepped_of_isOver hover]
    | false =>
      obtain ⟨result, htake⟩ := hop.exists_take hover true progress
      have hstepped := Operation.stepped_of_live (s := s) hover hop.cursor
      rw [hpull] at hstepped
      rw [readPhase_of_live hover hop.cursor, hcached, htake]
      refine ⟨hend, ?_⟩
      rw [List.map_cons, List.map_cons, hrest, Operation.fresh_take, hstepped]

/-- A round over a quiet scan that has not come to its end completes.  Every
member has made the step that it would make alone, and the scan was pulled once
unless every member was over. -/
theorem round_unison (quiet : s.IsQuiet id)
    (unexhausted : (s.cursor id).isExhausted = false)
    (steady : ∀ op ∈ ops, op.Steady id) :
    ∃ members s', round ops s = (.completed, members, s') ∧
      members.map Operation.fresh = ops.map (Operation.stepped s) ∧
      ((∀ op ∈ ops, op.isOver = true) ∧ s' = s ∨
        (∃ op ∈ ops, op.isOver = false) ∧ s' = (s.pull id).2) := by
  cases ops with
  | nil => exact ⟨[], s, rfl, rfl, .inl ⟨List.forall_mem_nil _, rfl⟩⟩
  | cons first others =>
    have hpulled := pullUnison_pullPhase quiet unexhausted rfl steady
    rw [round_cons (steady first List.mem_cons_self).cursor]
    generalize pullPhase id (s.cursor id).pulls (first :: others) s = pulled at hpulled
    cases hpulled with
    | @idle stepped stopped same =>
      refine ⟨stepped, s, ?_, same, .inl ⟨stopped, rfl⟩⟩
      show (RoundEnd.completed, stepped ++ [], s) = _
      rw [List.append_nil]
    | @moved stepped waiting live behind same =>
      obtain ⟨⟨progress, hpull⟩, -⟩ := quiet.pull
      obtain ⟨hend, hread⟩ := readPhase_unison quiet.isOpen hpull behind
      refine ⟨stepped ++ (readPhase waiting (s.pull id).2).2.1, (s.pull id).2, ?_, ?_,
        .inr ⟨live, rfl⟩⟩
      · dsimp only
        rw [hend, scans_readPhase]
      · rw [List.map_append, hread, same]

end Batch

end Lockstep
