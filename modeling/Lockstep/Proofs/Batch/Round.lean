import Lockstep.Batch.Round
import Lockstep.Proofs.Operation.Course
set_option autoImplicit false

/-!
# A round keeps its members on course

Members that are over hand the pull on without touching the scan.  The first
member that is not over pulls, and everyone behind it reads what that pull gave.
So after a completed round every member has seen exactly the rows that the
cursor has given, and after an aborted round the same as before it.
-/

namespace Lockstep.Batch

variable {ex : Expectation} {id : CursorId} {before : Nat} {s : Scans}

/-! ## One member of the pulling part -/

theorem pullPhase_of_isOver {op : Operation} (ended : op.isOver = true)
    (ops : List Operation) :
    pullPhase id before (op :: ops) s =
      if scanMoved id before s = false then
        { pullPhase id before ops s with
          stepped := op.stop false :: (pullPhase id before ops s).stepped }
      else ⟨none, [op.stop false], ops, s⟩ := by
  rw [pullPhase, Operation.step_of_isOver ended]
  simp only [true_and]

/-- A member that is not over takes what a pull gives. -/
theorem pullPhase_of_live {op : Operation} {s' : Scans} (live : op.isOver = false)
    (hid : op.pipeline.cursor = id) (hscans : op.scansAfter false s = s')
    (ops : List Operation) :
    pullPhase id before (op :: ops) s =
      match op.take false (s.pull id).1 with
      | (.error (.crashed crash), op) => ⟨some (.crashed crash), [op], ops, s'⟩
      | (.error (.failed f), op) =>
        ⟨some (if f.isTransient && !scanMoved id before s' then .aborted f
          else .broken f), [op], ops, s'⟩
      | (.ok result, op) =>
        if result = .finished ∧ scanMoved id before s' = false then
          { pullPhase id before ops s' with stepped :=
            op :: (pullPhase id before ops s').stepped }
        else ⟨none, [op], ops, s'⟩ := by
  subst hid
  subst hscans
  rw [pullPhase, Operation.step_of_not_isOver live]
  have hread : s.read op.pipeline.cursor false = s.pull op.pipeline.cursor := rfl
  rw [hread]
  generalize op.take false (s.pull op.pipeline.cursor).1 = taken
  obtain ⟨result, op'⟩ := taken
  cases result with
  | error i => cases i <;> rfl
  | ok result => rfl

theorem scanMoved_pull {progress : Progress} (hopen : s.IsOpen id)
    (hpulls : (s.cursor id).pulls = before) (h : (s.pull id).1 = .ok progress) :
    scanMoved id before (s.pull id).2 = true := by
  have hcase := Scans.pullCase hopen
  rw [h] at hcase
  unfold scanMoved
  generalize (s.pull id).2.cursor id = c at hcase ⊢
  generalize (s.pull id).2.graph = g at hcase
  cases hcase with
  | again _ ended => rw [ended, Bool.or_true]
  | row _ _ _ _ pulls _ _ | ended _ _ _ _ pulls _ _ =>
    rw [pulls, hpulls]
    simp

/-! ## Members on course -/

/-- Every operation of a list is fed by the cursor and on course. -/
def InStep (ex : Expectation) (id : CursorId) (s : Scans) (ops : List Operation) :
    Prop :=
  ∀ op ∈ ops, op.pipeline.cursor = id ∧ op.OnCourse ex (s.upcoming id)

/-- Every operation of a list is fed by the cursor and truthful. -/
def AllTruthful (ex : Expectation) (id : CursorId) (ops : List Operation) : Prop :=
  ∀ op ∈ ops, op.pipeline.cursor = id ∧ op.Truthful ex

theorem InStep.allTruthful {ops : List Operation} (h : InStep ex id s ops) :
    AllTruthful ex id ops :=
  fun op hop => ⟨(h op hop).1, (h op hop).2.truthful⟩

/-- What the pulling part of a round can come to. -/
inductive PullEnd (ex : Expectation) (id : CursorId) (s : Scans) : Pulled → Prop
  /-- the members in front are past the pull and the others still before it,
    which they read next -/
  | moved {stepped waiting : List Operation} {s' : Scans}
      (moves : Scans.OnlyMoves id s s')
      (passed : InStep ex id s' stepped) (behind : InStep ex id s waiting)
      (reads : waiting ≠ [] →
        Reads (s.upcoming id) (s'.cursor id).readCached (s'.upcoming id)) :
      PullEnd ex id s ⟨none, stepped, waiting, s'⟩
  /-- the pull failed and may be tried again -/
  | aborted (f : Failure) {stepped waiting : List Operation} {s' : Scans}
      (moves : Scans.OnlyMoves id s s') (kept : InStep ex id s' (stepped ++ waiting)) :
      PullEnd ex id s ⟨some (.aborted f), stepped, waiting, s'⟩
  /-- the batch cannot go on -/
  | lost {ending : RoundEnd} {stepped waiting : List Operation} {s' : Scans}
      (moves : Scans.OnlyMoves id s s')
      (truthful : AllTruthful ex id (stepped ++ waiting))
      (given : ending ≠ .completed ∧ ∀ f, ending ≠ .aborted f) :
      PullEnd ex id s ⟨some ending, stepped, waiting, s'⟩

theorem PullEnd.cons_stop {op : Operation} {pulled : Pulled}
    (h : PullEnd ex id s pulled) (ended : op.isOver = true)
    (hid : op.pipeline.cursor = id) (hcourse : op.OnCourse ex (s.upcoming id)) :
    PullEnd ex id s { pulled with stepped := op.stop false :: pulled.stepped } := by
  have hstop : ∀ s' : Scans, (op.stop false).pipeline.cursor = id ∧
      (op.stop false).OnCourse ex (s'.upcoming id) := fun s' =>
    ⟨(op.cursor_stop false).trans hid, hcourse.stop ended false _⟩
  cases h with
  | moved moves passed behind reads =>
    exact .moved moves (List.forall_mem_cons.mpr ⟨hstop _, passed⟩) behind reads
  | aborted f moves kept =>
    exact .aborted f moves (List.forall_mem_cons.mpr ⟨hstop _, kept⟩)
  | lost moves truthful given =>
    exact .lost moves
      (List.forall_mem_cons.mpr ⟨⟨(hstop s).1, (hstop s).2.truthful⟩, truthful⟩) given

theorem reads_of_isExhausted (hended : (s.cursor id).isExhausted = true) :
    Reads (s.upcoming id) (s.cursor id).readCached (s.upcoming id) := by
  unfold Cursor.readCached
  split
  · exact .failed _ _
  · unfold Scans.upcoming
    rw [Cursor.upcoming_of_isExhausted hended]
    unfold Cursor.isExhausted at hended
    split at hended
    · rename_i latest
      rw [latest]
      exact .ended
    · cases hended

/-- A member that is interrupted before it sees a row leaves everyone on course,
or breaks the batch. -/
theorem pullEnd_of_interrupted {op op' : Operation} {ops : List Operation}
    {i : Interruption} {s' : Scans} (live : op.isOver = false)
    (hid : op.pipeline.cursor = id)
    (htake : op.take false (s.pull id).1 = (.error i, op'))
    (hscans : op.scansAfter false s = s') (moves : Scans.OnlyMoves id s s')
    (hkept : InStep ex id s' (op' :: ops)) :
    PullEnd ex id s (pullPhase id before (op :: ops) s) := by
  rw [pullPhase_of_live live hid hscans, htake]
  cases i with
  | crashed crash => exact .lost moves hkept.allTruthful ⟨by simp, by simp⟩
  | failed f =>
    dsimp only
    split
    · exact .aborted f moves hkept
    · exact .lost moves hkept.allTruthful ⟨by simp, by simp⟩

/-- A pull that fails leaves everyone on course, or breaks the batch. -/
theorem pullEnd_of_failed {op : Operation} {ops : List Operation} {i : Interruption}
    (hopen : s.IsOpen id) (live : op.isOver = false) (asks : op.answer? = none)
    (hops : InStep ex id s (op :: ops)) (h : (s.pull id).1 = .error i) :
    PullEnd ex id s (pullPhase id before (op :: ops) s) := by
  obtain ⟨⟨hid, hcourse⟩, hrest⟩ := List.forall_mem_cons.mp hops
  have hcase := Scans.pullCase hopen
  rw [h] at hcase
  have hupcoming : (s.pull id).2.upcoming id = s.upcoming id := hcase.unmoved.2.2
  have htake := Operation.take_failed_of_asks asks false i
  rw [← h] at htake
  have hscans := op.scansAfter_of_asks asks s
  rw [hid] at hscans
  refine pullEnd_of_interrupted live hid htake hscans (s.onlyMoves_pull id) ?_
  unfold InStep
  rw [hupcoming]
  exact List.forall_mem_cons.mpr ⟨⟨hid, hcourse⟩, hrest⟩

theorem pullEnd_of_answer {op : Operation} {ops : List Operation} {i : Interruption}
    (live : op.isOver = false) (answer : op.answer? = some (.error i))
    (hops : InStep ex id s (op :: ops)) :
    PullEnd ex id s (pullPhase id before (op :: ops) s) := by
  obtain ⟨⟨hid, hcourse⟩, hrest⟩ := List.forall_mem_cons.mp hops
  obtain ⟨htake, hscans⟩ := Operation.step_of_answer answer false
  exact pullEnd_of_interrupted live hid (htake _) (hscans s) (.refl id s)
    (List.forall_mem_cons.mpr ⟨⟨hid, hcourse⟩, hrest⟩)

/-- A pull that gives something brings its member past it, or the member
breaks the batch. -/
theorem pullEnd_of_pulled {op : Operation} {ops : List Operation} {progress : Progress}
    (hopen : s.IsOpen id) (hpulls : (s.cursor id).pulls = before)
    (live : op.isOver = false) (asks : op.answer? = none)
    (hops : InStep ex id s (op :: ops)) (h : (s.pull id).1 = .ok progress) :
    PullEnd ex id s (pullPhase id before (op :: ops) s) := by
  obtain ⟨⟨hid, hcourse⟩, hrest⟩ := List.forall_mem_cons.mp hops
  have hmoves := s.onlyMoves_pull id
  have hmoved := scanMoved_pull hopen hpulls h
  have hcase := Scans.pullCase hopen
  rw [h] at hcase
  have hcursor : ∀ outcome, (op.take false outcome).2.pipeline.cursor = id :=
    fun outcome => (op.cursor_take false outcome).trans hid
  have hscans : op.scansAfter false s = (s.pull id).2 := by
    rw [op.scansAfter_of_asks asks, hid]
  rw [pullPhase_of_live live hid hscans, h, hmoved]
  generalize htake : op.take false (.ok progress) = taken
  obtain ⟨result, op'⟩ := taken
  have hop : (op.take false (.ok progress)).2 = op' := by rw [htake]
  have hresult : (op.take false (.ok progress)).1 = result := by rw [htake]
  cases result with
  | error i =>
    have htruthful : AllTruthful ex id (op' :: ops) := by
      refine List.forall_mem_cons.mpr ⟨⟨hop ▸ hcursor _, ?_⟩, InStep.allTruthful hrest⟩
      exact hop ▸ hcourse.truthful.take_interrupted live hresult
    cases i with
    | crashed crash => exact .lost hmoves htruthful ⟨by simp, by simp⟩
    | failed f =>
      simp only [Bool.not_true, Bool.and_false, Bool.false_eq_true, if_false]
      exact .lost hmoves htruthful ⟨by simp, by simp⟩
  | ok result =>
    simp only [Bool.true_eq_false, and_false, if_false]
    refine .moved hmoves ?_ hrest fun _ => hcase.reads_cached
    exact List.forall_mem_singleton.mpr
      ⟨hop ▸ hcursor _, hop ▸ hcourse.take live hcase.reads hresult⟩

/-- The pulling part of a round keeps everyone on course, or breaks the batch
with all truthful. -/
theorem pullEnd_pullPhase (hopen : s.IsOpen id) (hpulls : (s.cursor id).pulls = before)
    {ops : List Operation} (hops : InStep ex id s ops) :
    PullEnd ex id s (pullPhase id before ops s) := by
  induction ops with
  | nil => exact .moved (.refl id s) hops hops (fun h => absurd rfl h)
  | cons op ops ih =>
    cases hover : op.isOver with
    | true =>
      obtain ⟨⟨hid, hcourse⟩, hrest⟩ := List.forall_mem_cons.mp hops
      rw [pullPhase_of_isOver hover]
      split
      · exact (ih hrest).cons_stop hover hid hcourse
      · rename_i hmoved
        -- nothing was pulled in this round, so the scan had been found
        -- exhausted before it
        have hended : (s.cursor id).isExhausted = true := by
          simpa [scanMoved, hpulls] using hmoved
        refine .moved (.refl id s) ?_ hrest fun _ => reads_of_isExhausted hended
        exact List.forall_mem_singleton.mpr
          ⟨(op.cursor_stop false).trans hid, hcourse.stop hover false _⟩
    | false =>
      rcases Pipeline.answer?_of_not_isOver hover with hasks | ⟨i, hanswer⟩
      · cases hpull : (s.pull id).1 with
        | error i => exact pullEnd_of_failed hopen hover hasks hops hpull
        | ok progress => exact pullEnd_of_pulled hopen hpulls hover hasks hops hpull
      · exact pullEnd_of_answer hover hanswer hops

/-! ## The reading part -/

/-- What a round has come to. -/
inductive RoundResult (ex : Expectation) (id : CursorId) (s : Scans) :
    RoundEnd × List Operation × Scans → Prop
  /-- every member was stepped and is on course -/
  | completed {members : List Operation} {s' : Scans} (moves : Scans.OnlyMoves id s s')
      (kept : InStep ex id s' members) : RoundResult ex id s (.completed, members, s')
  /-- the pull failed and may be tried again, with every member on course -/
  | aborted (f : Failure) {members : List Operation} {s' : Scans}
      (moves : Scans.OnlyMoves id s s') (kept : InStep ex id s' members) :
      RoundResult ex id s (.aborted f, members, s')
  /-- the batch cannot go on, and every member is truthful -/
  | lost {ending : RoundEnd} {members : List Operation} {s' : Scans}
      (moves : Scans.OnlyMoves id s s') (truthful : AllTruthful ex id members)
      (given : ending ≠ .completed ∧ ∀ f, ending ≠ .aborted f) :
      RoundResult ex id s (ending, members, s')

theorem RoundResult.cons {op : Operation} {ending : RoundEnd} {members : List Operation}
    {s' : Scans} (h : RoundResult ex id s (ending, members, s'))
    (hop : op.pipeline.cursor = id ∧ op.OnCourse ex (s'.upcoming id)) :
    RoundResult ex id s (ending, op :: members, s') := by
  cases h with
  | completed moves kept =>
    exact .completed moves (List.forall_mem_cons.mpr ⟨hop, kept⟩)
  | aborted f moves kept =>
    exact .aborted f moves (List.forall_mem_cons.mpr ⟨hop, kept⟩)
  | lost moves truthful given =>
    exact .lost moves (List.forall_mem_cons.mpr ⟨⟨hop.1, hop.2.truthful⟩, truthful⟩) given

theorem readPhase_of_isOver {op : Operation} (ended : op.isOver = true)
    (ops : List Operation) :
    readPhase (op :: ops) s =
      ((readPhase ops s).1, op.stop true :: (readPhase ops s).2.1,
        (readPhase ops s).2.2) := by
  rw [readPhase, Operation.step_of_isOver ended]

/-- A member that is not over takes what the cache holds. -/
theorem readPhase_of_live {op : Operation} (live : op.isOver = false)
    (hid : op.pipeline.cursor = id) (ops : List Operation) :
    readPhase (op :: ops) s =
      match op.take true (s.cursor id).readCached with
      | (.error (.crashed crash), op) => (.crashed crash, op :: ops, s)
      | (.error (.failed f), op) => (.broken f, op :: ops, s)
      | (.ok _, op) =>
        ((readPhase ops s).1, op :: (readPhase ops s).2.1, (readPhase ops s).2.2) := by
  subst hid
  rw [readPhase, Operation.step_of_not_isOver live]
  have hread : s.read op.pipeline.cursor true =
    ((s.cursor op.pipeline.cursor).readCached, s) := rfl
  rw [hread, op.scansAfter_cached]
  generalize op.take true (s.cursor op.pipeline.cursor).readCached = taken
  obtain ⟨result, op'⟩ := taken
  cases result with
  | error i => cases i <;> rfl
  | ok result => rfl

theorem scans_readPhase (ops : List Operation) (s : Scans) :
    (readPhase ops s).2.2 = s := by
  induction ops with
  | nil => rfl
  | cons op ops ih =>
    cases hover : op.isOver with
    | true =>
      rw [readPhase_of_isOver hover]
      exact ih
    | false =>
      rw [readPhase_of_live hover rfl]
      split
      · rfl
      · rfl
      · exact ih

/-- Members that read what the pull gave catch up with those in front, or
break the batch. -/
theorem roundResult_readPhase {up : List Value}
    (reads : Reads up (s.cursor id).readCached (s.upcoming id)) {ops : List Operation}
    (hops : ∀ op ∈ ops, op.pipeline.cursor = id ∧ op.OnCourse ex up) :
    RoundResult ex id s (readPhase ops s) := by
  induction ops with
  | nil => exact .completed (.refl id s) (by simp [InStep])
  | cons op ops ih =>
    obtain ⟨⟨hid, hcourse⟩, hrest⟩ := List.forall_mem_cons.mp hops
    have hscans := scans_readPhase ops s
    cases hover : op.isOver with
    | true =>
      rw [readPhase_of_isOver hover]
      exact (ih hrest).cons ⟨(op.cursor_stop true).trans hid, hcourse.stop hover true _⟩
    | false =>
      have hcursor : ∀ outcome, (op.take true outcome).2.pipeline.cursor = id :=
        fun outcome => (op.cursor_take true outcome).trans hid
      rw [readPhase_of_live hover hid]
      generalize htake : op.take true (s.cursor id).readCached = taken
      obtain ⟨result, op'⟩ := taken
      have hop : (op.take true (s.cursor id).readCached).2 = op' := by rw [htake]
      have hresult : (op.take true (s.cursor id).readCached).1 = result := by rw [htake]
      cases result with
      | error i =>
        have htruthful : AllTruthful ex id (op' :: ops) := by
          refine List.forall_mem_cons.mpr ⟨⟨hop ▸ hcursor _, ?_⟩, fun other hother =>
            ⟨(hrest other hother).1, (hrest other hother).2.truthful⟩⟩
          exact hop ▸ hcourse.truthful.take_interrupted hover hresult
        cases i with
        | crashed crash => exact .lost (.refl id s) htruthful ⟨by simp, by simp⟩
        | failed f => exact .lost (.refl id s) htruthful ⟨by simp, by simp⟩
      | ok result =>
        refine (ih hrest).cons ⟨hop ▸ hcursor _, ?_⟩
        rw [hscans]
        exact hop ▸ hcourse.take hover reads hresult

/-! ## The whole round -/

theorem RoundResult.append {front members : List Operation} {ending : RoundEnd}
    {s' : Scans} (h : RoundResult ex id s (ending, members, s'))
    (hfront : InStep ex id s' front) :
    RoundResult ex id s (ending, front ++ members, s') := by
  induction front with
  | nil => exact h
  | cons op front ih =>
    obtain ⟨hop, hrest⟩ := List.forall_mem_cons.mp hfront
    exact (ih hrest).cons hop

theorem RoundResult.trans {s' : Scans} {result : RoundEnd × List Operation × Scans}
    (moved : Scans.OnlyMoves id s s') (h : RoundResult ex id s' result) :
    RoundResult ex id s result := by
  cases h with
  | completed moves kept => exact .completed (moved.trans moves) kept
  | aborted f moves kept => exact .aborted f (moved.trans moves) kept
  | lost moves truthful given => exact .lost (moved.trans moves) truthful given

theorem round_cons {first : Operation} (hid : first.pipeline.cursor = id)
    (others : List Operation) :
    round (first :: others) s =
      let pulled := pullPhase id (s.cursor id).pulls (first :: others) s
      match pulled.ending with
      | some ending => (ending, pulled.stepped ++ pulled.waiting, pulled.scans)
      | none =>
        ((readPhase pulled.waiting pulled.scans).1,
          pulled.stepped ++ (readPhase pulled.waiting pulled.scans).2.1,
          (readPhase pulled.waiting pulled.scans).2.2) := by
  subst hid
  rfl

/-- A round keeps its members on course, unless it breaks the batch. -/
theorem roundResult_round (hopen : s.IsOpen id) {members : List Operation}
    (hmembers : InStep ex id s members) : RoundResult ex id s (round members s) := by
  cases members with
  | nil => exact .completed (.refl id s) hmembers
  | cons first others =>
    have hpull := pullEnd_pullPhase hopen rfl hmembers
    rw [round_cons (hmembers first List.mem_cons_self).1]
    generalize pullPhase id (s.cursor id).pulls (first :: others) s = pulled at hpull
    cases hpull with
    | aborted f moves kept => exact .aborted f moves kept
    | lost moves truthful given => exact .lost moves truthful given
    | @moved stepped waiting s' moves passed behind reads =>
      have hread : RoundResult ex id s' (readPhase waiting s') := by
        by_cases hwaiting : waiting = []
        · subst hwaiting
          exact .completed (.refl id s') (List.forall_mem_nil _)
        · exact roundResult_readPhase (reads hwaiting) behind
      refine (hread.append ?_).trans moves
      rw [scans_readPhase]
      exact passed

end Lockstep.Batch
