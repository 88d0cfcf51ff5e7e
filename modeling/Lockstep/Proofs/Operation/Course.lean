import Lockstep.Proofs.Pipeline.Promise
set_option autoImplicit false

/-!
# Operations on course

An expectation says which rows an operation of a given number and text has to
end with.  An operation is on course as long as it promises expected rows.  It
is truthful as long as its rows are a prefix of expected rows, all of them once
it has found its end: this much is left after an interruption.
-/

namespace Lockstep

/-- Which rows an operation has to end with, by its sequence number and its text. -/
abbrev Expectation := Nat → String → List Value → Prop

namespace Operation

/-- Whether the operation has nothing more to give. -/
def isOver (op : Operation) : Bool := op.pipeline.isOver

/-- The operation after a step that found it over. -/
def stop (cached : Bool) (op : Operation) : Operation :=
  { op with pipeline := (op.pipeline.setCached cached).stop }

/-- Make the next step of the operation, given what a read gives if
its scan is asked. -/
def take (cached : Bool) (op : Operation) (outcome : Except Interruption Progress) :
    Except Interruption StepResult × Operation :=
  let (result, p) := (op.pipeline.setCached cached).take outcome
  (result, { op with pipeline := p })

/-- What the links of the operation answer to its next step, if they do so
without asking the scan. -/
def answer? (op : Operation) : Option (Except Interruption Unit) := op.pipeline.answer?

/-- The table after the next step of the operation. -/
def scansAfter (cached : Bool) (op : Operation) (s : Scans) : Scans :=
  (op.pipeline.setCached cached).scansAfter s

theorem step_of_isOver {op : Operation} (h : op.isOver = true) (cached : Bool) (s : Scans) :
    op.step cached s = (.ok .finished, op.stop cached, s) := by
  unfold step
  rw [Pipeline.step_of_isOver (p := op.pipeline.setCached cached) h]
  rfl

theorem step_of_not_isOver {op : Operation} (h : op.isOver = false) (cached : Bool)
    (s : Scans) :
    op.step cached s =
      ((op.take cached (s.read op.pipeline.cursor cached).1).1,
        (op.take cached (s.read op.pipeline.cursor cached).1).2,
          op.scansAfter cached s) := by
  unfold step
  rw [Pipeline.step_of_not_isOver (p := op.pipeline.setCached cached) h]
  rfl

/-- If a link breaks off before the scan is asked, the step is counted and
nothing else happens. -/
theorem step_of_answer {op : Operation} {i : Interruption}
    (h : op.answer? = some (.error i)) (cached : Bool) :
    (∀ outcome, op.take cached outcome =
      (.error i, { op with pipeline := (op.pipeline.setCached cached).countStep })) ∧
      ∀ s, op.scansAfter cached s = s := by
  refine ⟨fun outcome => ?_,
    fun s => Pipeline.scansAfter_of_answer (p := op.pipeline.setCached cached) h s⟩
  have htake := Pipeline.take_of_answer (p := op.pipeline.setCached cached) h outcome
  unfold take
  rw [htake]

theorem take_failed_of_asks {op : Operation} (h : op.answer? = none) (cached : Bool)
    (i : Interruption) : op.take cached (.error i) =
      (.error i, { op with pipeline := (op.pipeline.setCached cached).countStep }) := by
  have htake := Pipeline.take_of_asks (p := op.pipeline.setCached cached) h (.error i)
  unfold take
  rw [htake]
  rfl

theorem scansAfter_of_asks {op : Operation} (h : op.answer? = none) (s : Scans) :
    op.scansAfter false s = (s.pull op.pipeline.cursor).2 :=
  Pipeline.scansAfter_of_asks (p := op.pipeline.setCached false) h s

theorem scansAfter_cached (op : Operation) (s : Scans) : op.scansAfter true s = s :=
  Pipeline.scansAfter_of_cached (p := op.pipeline.setCached true) rfl s

theorem onlyMoves_scansAfter (op : Operation) (s : Scans) :
    Scans.OnlyMoves op.pipeline.cursor s (op.scansAfter false s) := by
  unfold scansAfter Pipeline.scansAfter
  split
  · exact .refl _ s
  · exact s.onlyMoves_pull _

@[simp] theorem cursor_stop (cached : Bool) (op : Operation) :
    (op.stop cached).pipeline.cursor = op.pipeline.cursor := by
  unfold stop Pipeline.stop
  split <;> rfl

@[simp] theorem cursor_take (cached : Bool) (op : Operation)
    (outcome : Except Interruption Progress) :
    (op.take cached outcome).2.pipeline.cursor = op.pipeline.cursor :=
  ((op.pipeline.setCached cached).sameScan_take outcome).cursor

/-! ## On course -/

/-- The operation promises expected rows if these rows are to come. -/
def OnCourse (ex : Expectation) (rows : List Value) (op : Operation) : Prop :=
  ex op.sequence op.query (op.pipeline.promise rows)

/-- The rows of the operation are a prefix of expected rows, and all of
them at its end. -/
def Truthful (ex : Expectation) (op : Operation) : Prop :=
  ∃ expected, ex op.sequence op.query expected ∧ op.pipeline.rows.toList <+: expected ∧
    (op.isFinished = true → op.pipeline.rows.toList = expected)

theorem OnCourse.truthful {ex : Expectation} {rows : List Value} {op : Operation}
    (h : op.OnCourse ex rows) : op.Truthful ex :=
  ⟨_, h, op.pipeline.rows_prefix_promise rows,
    fun finished => (Pipeline.promise_of_finished finished rows).symm⟩

theorem OnCourse.stop {ex : Expectation} {rows : List Value} {op : Operation}
    (h : op.OnCourse ex rows) (ended : op.isOver = true) (cached : Bool)
    (rows' : List Value) :
    (op.stop cached).OnCourse ex rows' := by
  have hpromise : (op.stop cached).pipeline.promise rows' =
      op.pipeline.promise rows := by
    rw [Pipeline.promise_of_isOver ended rows]
    refine (Pipeline.promise_of_finished (Pipeline.finished_stop _) rows').trans ?_
    exact congrArg Array.toList (Pipeline.rows_stop _)
  unfold OnCourse
  rw [hpromise]
  exact h

theorem OnCourse.take {ex : Expectation} {before after : List Value} {op : Operation}
    {outcome : Except Interruption Progress} {result : StepResult} {cached : Bool}
    (h : op.OnCourse ex before) (live : op.isOver = false)
    (reads : Reads before outcome after)
    (hresult : (op.take cached outcome).1 = .ok result) :
    (op.take cached outcome).2.OnCourse ex after := by
  have hpromise : (op.take cached outcome).2.pipeline.promise after =
      op.pipeline.promise before :=
    Pipeline.promise_take (p := op.pipeline.setCached cached) live reads hresult
  unfold OnCourse at h ⊢
  rw [hpromise]
  exact h

/-- An interrupted operation has gained no row and found no end. -/
theorem Truthful.take_interrupted {ex : Expectation} {op : Operation}
    {outcome : Except Interruption Progress} {i : Interruption} {cached : Bool}
    (h : op.Truthful ex) (live : op.isOver = false)
    (hresult : (op.take cached outcome).1 = .error i) :
    (op.take cached outcome).2.Truthful ex := by
  obtain ⟨hrows, hfinished⟩ :
    (op.take cached outcome).2.pipeline.rows = op.pipeline.rows ∧
      (op.take cached outcome).2.pipeline.finished = op.pipeline.finished :=
    Pipeline.take_interrupted (p := op.pipeline.setCached cached) hresult
  have hlive : op.pipeline.finished = false := Pipeline.finished_of_not_isOver live
  obtain ⟨expected, hex, hprefix, -⟩ := h
  refine ⟨expected, hex, ?_, ?_⟩
  · rw [hrows]
    exact hprefix
  · intro finished
    have hboth := finished.symm.trans (hfinished.trans hlive)
    cases hboth

end Operation

namespace Delivery

/-- A delivery as completed has expected rows, a delivery as failed a prefix of them. -/
def Truthful (ex : Expectation) (d : Delivery) : Prop :=
  ∃ expected, ex d.operation.sequence d.operation.query expected ∧
    (d.status = .completed → d.outcome.rows.toList = expected) ∧
    ∀ reason, d.status = .failed reason → d.outcome.rows.toList <+: expected

/-- A truthful operation may always be delivered as failed. -/
theorem truthful_failed {ex : Expectation} {op : Operation} (h : op.Truthful ex)
    (reason : String) :
    Truthful ex ⟨op, .failed reason⟩ := by
  obtain ⟨expected, hex, hprefix, -⟩ := h
  exact ⟨expected, hex, fun completed => (by cases completed), fun _ _ => hprefix⟩

/-- A truthful operation at its end may be delivered as completed. -/
theorem truthful_completed {ex : Expectation} {op : Operation} (h : op.Truthful ex)
    (finished : op.isFinished = true) : Truthful ex ⟨op, .completed⟩ := by
  obtain ⟨expected, hex, -, hall⟩ := h
  exact ⟨expected, hex, fun _ => hall finished, fun _ failed => (by cases failed)⟩

end Delivery

end Lockstep
