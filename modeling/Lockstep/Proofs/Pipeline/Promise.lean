import Lockstep.Operation
import Lockstep.Proofs.Link.Yield
import Lockstep.Proofs.Scan.Upcoming
set_option autoImplicit false

/-!
# What a pipeline promises

A step either finds the query over, without a look at the scan, or takes what
one read of the scan gives, unless a link breaks off before the scan is asked.
The promise of a pipeline is what it has, followed by what its links yield of
the rows to come.  A step that gives a result keeps the promise; a step that is
interrupted keeps the rows.
-/

namespace Lockstep

/-! ## Reads -/

/-- `Reads before outcome after`: with the rows `before` to come, a read gives
`outcome` and leaves the rows `after`. -/
inductive Reads : List Value → Except Interruption Progress → List Value → Prop
  | row (row : Value) (rest : List Value) : Reads (row :: rest) (.ok (.row row)) rest
  | ended : Reads [] (.ok .ended) []
  | failed (i : Interruption) (rows : List Value) : Reads rows (.error i) rows

/-- A pull reads the rows to come. -/
theorem Cursor.PullCase.reads {c c' : Cursor} {g g' : Graph}
    {outcome : Except Interruption Progress} (h : c.PullCase g (outcome, c', g')) :
    Reads (c.upcoming g) outcome (c'.upcoming g') := by
  cases h with
  | again _ ended =>
    rw [upcoming_of_isExhausted ended]
    exact .ended
  | row _ _ _ _ _ _ upcoming =>
    rw [upcoming]
    exact .row _ _
  | ended _ _ _ latest _ _ upcoming =>
    rw [upcoming, upcoming_of_isExhausted (by rw [isExhausted, latest])]
    exact .ended
  | failed i _ _ _ upcoming =>
    rw [upcoming]
    exact .failed _ _

/-- A pull that gave something is read again from the cache, as if the rows
before it were to come. -/
theorem Cursor.PullCase.reads_cached {c c' : Cursor} {g g' : Graph}
    {progress : Progress} (h : c.PullCase g (.ok progress, c', g')) :
    Reads (c.upcoming g) c'.readCached (c'.upcoming g') := by
  have hreads := h.reads
  cases h with
  | again sound ended =>
    unfold isExhausted at ended
    unfold readCached
    rw [sound]
    split at ended
    · rename_i latest
      rw [latest]
      exact hreads
    · cases ended
  | row _ _ _ latest _ sound _ | ended _ _ _ latest _ sound _ =>
    unfold readCached
    rw [sound, latest]
    exact hreads

namespace Pipeline

/-! ## Steps -/

/-- Whether some limit lets nothing more through. -/
def isSpent (p : Pipeline) : Bool := p.links.any Link.isSpent

/-- What the links answer to the next step, if they do so without asking the scan. -/
def answer? (p : Pipeline) : Option (Except Interruption Unit) :=
  Link.ask p.countStep.counters p.links

/-- Whether the next step finds the end without a look at the scan. -/
def isOver (p : Pipeline) : Bool :=
  p.finished || p.answer?.any fun answer => answer.toOption.isSome

/-- The pipeline after a step that found the query over. -/
def stop (p : Pipeline) : Pipeline := if p.finished then p else p.countStep.finish

/-- Make the next step, given what a read of the scan gives if the scan is asked. -/
def take (p : Pipeline) (outcome : Except Interruption Progress) :
    Except Interruption StepResult × Pipeline :=
  match p.answer? with
  | some answer => p.countStep.conclude answer
  | none => p.countStep.accept outcome

/-- The table after the next step: the scan was read, or a link broke off
before it was asked. -/
def scansAfter (p : Pipeline) (s : Scans) : Scans :=
  if p.answer?.isSome then s else (s.read p.cursor p.cached).2

theorem answer?_of_not_isOver {p : Pipeline} (h : p.isOver = false) :
    p.answer? = none ∨ ∃ i, p.answer? = some (.error i) := by
  cases hanswer : p.answer? with
  | none => exact .inl rfl
  | some answer =>
    cases answer with
    | error i => exact .inr ⟨i, rfl⟩
    | ok _ => simp [isOver, hanswer, Except.toOption] at h

theorem finished_of_not_isOver {p : Pipeline} (h : p.isOver = false) :
    p.finished = false :=
  (Bool.or_eq_false_iff.mp h).1

/-- A query that is over was found finished or has a spent limit. -/
theorem isSpent_of_isOver {p : Pipeline} (h : p.isOver = true)
    (live : p.finished = false) :
    p.answer? = some (.ok ()) ∧ p.isSpent = true := by
  cases hanswer : p.answer? with
  | none => simp [isOver, live, hanswer] at h
  | some answer =>
    cases answer with
    | error i => simp [isOver, live, hanswer, Except.toOption] at h
    | ok _ => exact ⟨rfl, Link.isSpent_of_ask hanswer⟩

theorem step_of_isOver {p : Pipeline} (h : p.isOver = true) (s : Scans) :
    p.step s = (.ok .finished, p.stop, s) := by
  unfold step stop
  cases hfinished : p.finished with
  | true => rfl
  | false =>
    have hanswer := (isSpent_of_isOver h hfinished).1
    unfold answer? at hanswer
    simp only [Bool.false_eq_true, if_false, show p.countStep.links = p.links from
      rfl, hanswer]
    rfl

theorem step_of_not_isOver {p : Pipeline} (h : p.isOver = false) (s : Scans) :
    p.step s =
      ((p.take (s.read p.cursor p.cached).1).1, (p.take (s.read p.cursor p.cached).1).2,
      p.scansAfter s) := by
  unfold step take scansAfter
  simp only [finished_of_not_isOver h, Bool.false_eq_true, if_false]
  have hasked : Link.ask p.countStep.counters p.countStep.links = p.answer? := rfl
  rw [hasked]
  cases p.answer? <;> rfl

theorem take_of_asks {p : Pipeline} (h : p.answer? = none)
    (outcome : Except Interruption Progress) :
    p.take outcome = p.countStep.accept outcome := by
  unfold take
  rw [h]

theorem take_of_answer {p : Pipeline} {i : Interruption}
    (h : p.answer? = some (.error i)) (outcome : Except Interruption Progress) :
    p.take outcome = (.error i, p.countStep) := by
  unfold take
  rw [h]
  rfl

theorem scansAfter_of_answer {p : Pipeline} {i : Interruption}
    (h : p.answer? = some (.error i)) (s : Scans) : p.scansAfter s = s := by
  unfold scansAfter
  rw [h]
  rfl

theorem scansAfter_of_asks {p : Pipeline} (h : p.answer? = none) (s : Scans) :
    p.scansAfter s = (s.read p.cursor p.cached).2 := by
  unfold scansAfter
  rw [h]
  rfl

theorem scansAfter_of_cached {p : Pipeline} (h : p.cached = true) (s : Scans) :
    p.scansAfter s = s := by
  unfold scansAfter
  rw [h]
  exact ite_self s

/-! ## What a step leaves alone -/

/-- Two states of one pipeline: the same scan of the same kind, read in the same way. -/
structure SameScan (p p' : Pipeline) : Prop where
  kind : p'.kind = p.kind
  cursor : p'.cursor = p.cursor
  cached : p'.cached = p.cached

theorem sameScan_receive (p : Pipeline) (row : Value) :
    SameScan p (p.receive row).2 := by
  unfold receive
  dsimp only
  split <;> exact ⟨rfl, rfl, rfl⟩

theorem sameScan_conclude (p : Pipeline) (answer : Except Interruption Unit) :
    SameScan p (p.conclude answer).2 := by
  cases answer <;> exact ⟨rfl, rfl, rfl⟩

theorem sameScan_take (p : Pipeline) (outcome : Except Interruption Progress) :
    SameScan p (p.take outcome).2 := by
  have hcounted : ∀ {q : Pipeline}, SameScan p.countStep q → SameScan p q :=
    fun h => ⟨h.kind, h.cursor, h.cached⟩
  unfold take
  split
  · exact hcounted (p.countStep.sameScan_conclude _)
  · unfold accept
    split
    · exact ⟨rfl, rfl, rfl⟩
    · exact hcounted (p.countStep.sameScan_conclude _)
    · exact ⟨rfl, rfl, rfl⟩
    · exact hcounted (p.countStep.sameScan_receive _)

theorem steps_conclude (p : Pipeline) (answer : Except Interruption Unit) :
    (p.conclude answer).2.counters.steps = p.counters.steps := by
  cases answer <;> rfl

theorem steps_take (p : Pipeline) (outcome : Except Interruption Progress) :
    (p.take outcome).2.counters.steps = p.counters.steps + 1 := by
  unfold take
  split
  · exact p.countStep.steps_conclude _
  · unfold accept
    split
    · rfl
    · exact p.countStep.steps_conclude _
    · rfl
    · unfold receive
      dsimp only
      split <;> rfl

/-! ## The promise -/

/-- What the pipeline has, followed by what it makes of the rows to come. -/
def promise (p : Pipeline) (rows : List Value) : List Value :=
  p.rows.toList ++ if p.finished then [] else Link.yield p.links rows

theorem promise_of_finished {p : Pipeline} (h : p.finished = true) (rows : List Value) :
    p.promise rows = p.rows.toList := by
  unfold promise
  rw [h]
  exact List.append_nil _

theorem rows_prefix_promise (p : Pipeline) (rows : List Value) :
    p.rows.toList <+: p.promise rows :=
  List.prefix_append _ _

theorem promise_of_isSpent {p : Pipeline} (h : p.isSpent = true) (rows : List Value) :
    p.promise rows = p.rows.toList := by
  unfold promise
  rw [Link.yield_of_isSpent h, ite_self]
  exact List.append_nil _

theorem promise_of_isOver {p : Pipeline} (h : p.isOver = true) (rows : List Value) :
    p.promise rows = p.rows.toList := by
  cases hfinished : p.finished with
  | true => exact promise_of_finished hfinished rows
  | false => exact promise_of_isSpent (isSpent_of_isOver h hfinished).2 rows

theorem rows_stop (p : Pipeline) : p.stop.rows = p.rows := by
  unfold stop
  split <;> rfl

theorem finished_stop (p : Pipeline) : p.stop.finished = true := by
  unfold stop
  split
  · assumption
  · rfl

/-- Taking a row keeps the promise, unless a link breaks off. -/
theorem promise_receive {p : Pipeline} {row : Value} {result : StepResult}
    (live : p.finished = false) (unspent : p.isSpent = false)
    (h : (p.receive row).1 = .ok result) (rest : List Value) :
    (p.receive row).2.promise rest = p.promise (row :: rest) := by
  unfold receive at h ⊢
  dsimp only at h ⊢
  split at h
  · rename_i out hverdict
    unfold promise
    simp only [live, Link.yield_cons_of_pass unspent (Prod.ext hverdict rfl)]
    simp
  · rename_i hverdict
    unfold promise
    simp only [live, Link.yield_cons_of_rejected unspent (Prod.ext hverdict rfl)]
  · cases h

/-- A step that takes a read of the rows to come keeps the promise, unless
it is interrupted. -/
theorem promise_take {p : Pipeline} {before after : List Value}
    {outcome : Except Interruption Progress} {result : StepResult}
    (live : p.isOver = false) (reads : Reads before outcome after)
    (h : (p.take outcome).1 = .ok result) :
    (p.take outcome).2.promise after = p.promise before := by
  have hfinished := finished_of_not_isOver live
  rcases answer?_of_not_isOver live with hasks | ⟨i, hanswer⟩
  · have hunspent : p.countStep.isSpent = false := Link.unspent_of_ask hasks
    unfold take at h ⊢
    rw [hasks] at h ⊢
    dsimp only [accept] at h ⊢
    cases reads with
    | row row => exact promise_receive (p := p.countStep) hfinished hunspent h after
    | ended =>
      dsimp only at h ⊢
      cases hclose : Link.close p.countStep.counters p.countStep.links with
      | error i =>
        rw [hclose] at h
        cases h
      | ok _ => simp [conclude, finish, countStep, promise]
    | failed i rows => cases h
  · rw [take_of_answer hanswer] at h
    cases h

theorem conclude_interrupted {p : Pipeline} {answer : Except Interruption Unit}
    {i : Interruption} (h : (p.conclude answer).1 = .error i) :
    (p.conclude answer).2.rows = p.rows ∧ (p.conclude answer).2.finished = p.finished := by
  cases answer with
  | error i => exact ⟨rfl, rfl⟩
  | ok _ => cases h

/-- A read that interrupts the query, or a link that breaks off, adds no row
and finds no end. -/
theorem take_interrupted {p : Pipeline} {outcome : Except Interruption Progress}
    {i : Interruption} (h : (p.take outcome).1 = .error i) :
    (p.take outcome).2.rows = p.rows ∧ (p.take outcome).2.finished = p.finished := by
  unfold take at h ⊢
  split at h
  · exact conclude_interrupted (p := p.countStep) h
  · unfold accept at h ⊢
    split at h
    · exact ⟨rfl, rfl⟩
    · exact conclude_interrupted (p := p.countStep) h
    · cases h
    · unfold receive at h ⊢
      dsimp only at h ⊢
      split at h
      · cases h
      · cases h
      · exact ⟨rfl, rfl⟩

theorem finished_conclude {p : Pipeline} {answer : Except Interruption Unit}
    {result : StepResult} (h : (p.conclude answer).1 = .ok result) :
    (p.conclude answer).2.finished = true ∧ result = .finished := by
  cases answer with
  | error i => cases h
  | ok _ =>
    cases h
    exact ⟨rfl, rfl⟩

theorem take_failed {p : Pipeline} (live : p.isOver = false) (i : Interruption) :
    ∃ j, (p.take (.error i)).1 = .error j := by
  rcases answer?_of_not_isOver live with hasks | ⟨j, hanswer⟩
  · exact ⟨i, congrArg Prod.fst (take_of_asks hasks _)⟩
  · exact ⟨j, congrArg Prod.fst (take_of_answer hanswer _)⟩

theorem finished_take_ended {p : Pipeline} {result : StepResult}
    (live : p.isOver = false) (h : (p.take (.ok .ended)).1 = .ok result) :
    (p.take (.ok .ended)).2.finished = true := by
  rcases answer?_of_not_isOver live with hasks | ⟨i, hanswer⟩
  · rw [take_of_asks hasks] at h ⊢
    exact (finished_conclude (p := p.countStep) h).1
  · rw [take_of_answer hanswer] at h
    cases h

/-- Only taking the end finishes a query. -/
theorem finished_take {p : Pipeline} {outcome : Except Interruption Progress}
    {result : StepResult} (live : p.finished = false)
    (h : (p.take outcome).1 = .ok result) :
    (p.take outcome).2.finished = true ↔ result = .finished := by
  have hcounted : p.countStep.finished = false := live
  unfold take at h ⊢
  split at h
  · obtain ⟨hfinished, hresult⟩ := finished_conclude h
    exact iff_of_true hfinished hresult
  · unfold accept at h ⊢
    split at h
    · cases h
    · obtain ⟨hfinished, hresult⟩ := finished_conclude h
      exact iff_of_true hfinished hresult
    · cases h
      exact iff_of_false (by simp [hcounted]) (by simp)
    · unfold receive at h ⊢
      dsimp only at h ⊢
      split at h <;> cases h
      · exact iff_of_false (by simp [hcounted]) (by simp)
      · exact iff_of_false (by simp [hcounted]) (by simp)

end Pipeline

end Lockstep
