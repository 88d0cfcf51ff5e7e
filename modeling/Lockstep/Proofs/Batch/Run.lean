import Lockstep.Proofs.Batch.Advance
import Lockstep.Proofs.Batch.Conservation
import Lockstep.Proofs.Batch.Formation
import Lockstep.Proofs.Pipeline.Alone
import Lockstep.Proofs.Scan.Disturbance
set_option autoImplicit false

/-!
# Running a batch

A batch lives through calls that advance it by any number of rounds with any
number of retries, while the graph behind its scan is closed, opened again or
made to fail.  Whatever fails or crashes on the way, what the batch delivers as
completed is what the same chain gives when it is run alone, and what it
delivers as failed is a prefix of that.
-/

namespace Lockstep

/-- What happens to a batch from outside. -/
inductive BatchCall where
  /-- an advance of so many rounds that survives so many aborted rounds in a row -/
  | advance (stride : Nat) (maxRetries : UInt32)
  | disturb (disturbance : Disturbance)
  deriving DecidableEq, Repr, Inhabited

/-- What calls have left of a batch, and what it has delivered to someone who
takes everything. -/
structure BatchRun where
  batch : Batch
  scans : Scans
  deliveries : List Delivery := []
  deriving Repr, Inhabited

namespace BatchRun

/-- Answer one call.  A crash of an advance is caught and fails the batch. -/
def answer (r : BatchRun) : BatchCall → BatchRun
  | .advance stride maxRetries =>
    let sch : Scheduler := { stride := stride, maxRetries := maxRetries }
    let a := sch.guardedAdvance none r.batch r.scans
    ⟨a.batch, a.scans, r.deliveries ++ a.deliveries⟩
  | .disturb d => { r with scans := r.scans.disturb d }

/-- Answer calls in order. -/
def answerAll (r : BatchRun) (calls : List BatchCall) : BatchRun := calls.foldl answer r

/-- The sequence numbers of the operations delivered and of those still in the batch. -/
def sequences (r : BatchRun) : List Nat :=
  r.deliveries.map (·.operation.sequence) ++ r.batch.members.map Operation.sequence

/-- Every member is on course, and every delivery truthful. -/
structure Kept (ex : Expectation) (id : CursorId) (r : BatchRun) : Prop where
  isOpen : r.scans.IsOpen id
  members : Batch.InStep ex id r.scans r.batch.members
  deliveries : ∀ d ∈ r.deliveries, d.Truthful ex

theorem Kept.answer {ex : Expectation} {id : CursorId} {r : BatchRun} (h : r.Kept ex id)
    (call : BatchCall) : (r.answer call).Kept ex id := by
  cases call with
  | advance stride maxRetries =>
    obtain ⟨hkept, hmembers⟩ := Scheduler.kept_guardedAdvance
      { stride := stride, maxRetries := maxRetries } none h.isOpen h.members
    exact ⟨hkept.moves.isOpen h.isOpen, hmembers,
      List.forall_mem_append.mpr ⟨h.deliveries, hkept.deliveries⟩⟩
  | disturb d =>
    refine ⟨h.isOpen, ?_, h.deliveries⟩
    intro op hop
    obtain ⟨hid, hcourse⟩ := h.members op hop
    refine ⟨hid, ?_⟩
    show op.OnCourse ex ((r.scans.disturb d).upcoming id)
    rw [Scans.upcoming_disturb]
    exact hcourse

theorem Kept.answerAll {ex : Expectation} {id : CursorId} {r : BatchRun}
    (h : r.Kept ex id) (calls : List BatchCall) : (r.answerAll calls).Kept ex id := by
  induction calls generalizing r with
  | nil => exact h
  | cons call calls ih => exact ih (h.answer call)

theorem sequences_answer (r : BatchRun) (call : BatchCall) :
    (r.answer call).sequences.Perm r.sequences := by
  cases call with
  | advance stride maxRetries =>
    have haccounted := Scheduler.accounted_guardedAdvance
      { stride := stride, maxRetries := maxRetries } r.batch r.scans
    unfold sequences answer
    dsimp only
    rw [List.map_append, List.append_assoc]
    exact haccounted.append_left _
  | disturb d => exact .refl _

theorem sequences_answerAll (r : BatchRun) (calls : List BatchCall) :
    (r.answerAll calls).sequences.Perm r.sequences := by
  induction calls generalizing r with
  | nil => exact .refl _
  | cons call calls ih => exact (ih (r.answer call)).trans (r.sequences_answer call)

end BatchRun

namespace Batch

/-- Operations of one kind that were never stepped can be grouped.  Whatever
calls the batch gets and however its scan and its chains fail or crash, it loses
and doubles no operation, delivers as completed exactly the rows that the
operation's chain gives when it is run alone over the rows of the first
operation's source, and delivers as failed a prefix of them. -/
theorem answerAll_delivers_standalone (id : String) (s : Scans) (first : Operation)
    (others : List Operation) (unstarted : ∀ op ∈ first :: others, op.Unstarted s)
    (kinds : ∀ op ∈ others, op.pipeline.kind = first.pipeline.kind) :
    ∃ b, form id (first :: others) s = .ok b ∧ ∀ calls : List BatchCall,
      let rows := (s.cursor first.pipeline.cursor).source.rows s.graph
      let run := BatchRun.answerAll { batch := b, scans := s } calls
      run.sequences.Perm ((first :: others).map Operation.sequence) ∧
        ∀ d ∈ run.deliveries, ∃ op ∈ first :: others,
          d.operation.sequence = op.sequence ∧ d.operation.query = op.query ∧
          (d.status = .completed → d.outcome.rows.toList = op.standalone rows) ∧
          (∀ reason, d.status = .failed reason →
            d.outcome.rows.toList <+: op.standalone rows) ∧
          (Pipeline.alone op.pipeline.links rows).finished = true ∧
          (Pipeline.alone op.pipeline.links rows).rows.toList = op.standalone rows := by
  have hfirst := unstarted first List.mem_cons_self
  have hrows := hfirst.pristine.upcoming s.graph
  refine ⟨_, form_eq id kinds fun op hop => (unstarted op hop).pristine.pulls,
    fun calls => ⟨?_, ?_⟩⟩
  · refine (BatchRun.sequences_answerAll _ calls).trans (.of_eq ?_)
    exact map_sequence_grouped first others
  · intro d hd
    let ex : Expectation := fun sequence query rows => ∃ op ∈ first :: others,
      sequence = op.sequence ∧ query = op.query ∧
        rows = op.standalone ((s.cursor first.pipeline.cursor).source.rows s.graph)
    have hmembers : InStep ex first.pipeline.cursor s (grouped first others) :=
      inStep_grouped unstarted fun op hop =>
        ⟨op, hop, rfl, rfl, congrArg op.standalone hrows⟩
    have hstart : BatchRun.Kept ex first.pipeline.cursor
        { batch :=
          { id := id, firstSequence := first.sequence, members := grouped first others }
          scans := s } := ⟨hfirst.isOpen, hmembers, List.forall_mem_nil _⟩
    obtain ⟨expected, ⟨op, hop, hsequence, hquery, rfl⟩, hcompleted, hfailed⟩ :=
      (hstart.answerAll calls).deliveries d hd
    obtain ⟨hfinished, halone⟩ := Pipeline.alone_spec op.pipeline.links
      ((s.cursor first.pipeline.cursor).source.rows s.graph)
    exact ⟨op, hop, hsequence, hquery, hcompleted, hfailed, hfinished, halone⟩

/-- A script of two rows with a failure between them. -/
def interruptedPair : Scans where
  graph := default
  cursors := #[
    { source := .script
        [.row (.nat 1), .interruption (.failed ⟨.transactionUnavailable, "busy"⟩),
          .row (.nat 2)] },
    { source := .script [.interruption (.crashed .other)] }]

/-- An operation cut at one row. -/
def cutShort : Operation :=
  ⟨0, "first", { kind := .allNodes, cursor := 0, links := [.ofQuota 1] }⟩

/-- An operation that takes every row. -/
def takesAll : Operation :=
  ⟨1, "all", { kind := .allNodes, cursor := 1, links := [.filter []] }⟩

theorem unstarted_interruptedPair :
    ∀ op ∈ [cutShort, takesAll], op.Unstarted interruptedPair := by
  intro op hop
  rcases List.mem_cons.mp hop with rfl | hop
  · exact ⟨rfl, rfl, rfl, by decide, rfl⟩
  · rw [List.mem_singleton.mp hop]
    exact ⟨rfl, rfl, rfl, by decide, rfl⟩

theorem kinds_interruptedPair :
    ∀ op ∈ [takesAll], op.pipeline.kind = cutShort.pipeline.kind :=
  List.forall_mem_singleton.mpr rfl

/-- However a batch of a chain cut at one row and one that takes all is advanced
over two rows, the first can only complete with the first row and the second
only with both; and two calls that allow one retry complete them. -/
theorem answerAll_delivers_standalone_pair :
    ∃ b, form "pair" [cutShort, takesAll] interruptedPair = .ok b ∧
      let start : BatchRun := { batch := b, scans := interruptedPair }
      (∀ calls : List BatchCall, ∀ d ∈ (start.answerAll calls).deliveries,
        d.status = .completed →
        d.operation.sequence = 0 ∧ d.outcome.rows.toList = [.nat 1] ∨
        d.operation.sequence = 1 ∧ d.outcome.rows.toList = [.nat 1, .nat 2]) ∧
      (start.answerAll [.advance 9 1, .advance 9 1]).deliveries.map (fun d =>
        (d.operation.sequence, d.status, d.outcome.rows.toList)) =
          [(0, .completed, [.nat 1]), (1, .completed, [.nat 1, .nat 2])] := by
  obtain ⟨b, hform, hrun⟩ :=
    answerAll_delivers_standalone "pair" interruptedPair cutShort [takesAll]
    unstarted_interruptedPair kinds_interruptedPair
  refine ⟨b, hform, ?_, ?_⟩
  · intro calls d hd completed
    obtain ⟨op, hop, hsequence, -, hrows, -⟩ := (hrun calls).2 d hd
    rcases List.mem_cons.mp hop with rfl | hop
    · exact .inl ⟨hsequence, hrows completed⟩
    · rw [List.mem_singleton.mp hop] at hsequence hrows
      exact .inr ⟨hsequence, hrows completed⟩
  · cases hform
    rfl

/-- A chain of a filter, a projection and a limit has to end with the rows
filtered, shaped and cut. -/
example (ps : List Predicate) (items : List Item) (n : Nat) (rows : List Value) :
    Link.yield [.filter ps, .project items, .ofQuota n] rows =
      ((rows.filter (Predicate.allHold ps)).map (Item.shape items)).take n := rfl

end Batch

end Lockstep
