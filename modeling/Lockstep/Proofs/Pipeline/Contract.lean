import Lockstep.Proofs.Batch.Locality
import Lockstep.Proofs.Scan.Asking
import Lockstep.Proofs.Scan.Disturbance
import Lockstep.Proofs.Scan.Remaining
set_option autoImplicit false

/-!
# The contract of a step

A pipeline is stepped while its scan may be switched between cached reads and
fresh pulls, while others pull the same cursor and while the transaction behind
it is disturbed.  Whatever of this happens, a step asks the source at most once
and adds at most one row, the end is found for a reason and for good, and every
row that was scanned is accounted for.
-/

namespace Lockstep

namespace Pipeline

/-! ## One step -/

/-- A step as a use of the table. -/
def stepping (p : Pipeline) (s : Scans) :
    (Except Interruption StepResult × Pipeline) × Scans :=
  (((p.step s).1, (p.step s).2.1), (p.step s).2.2)

theorem asks_stepping_of_isOver {p : Pipeline} (h : p.isOver = true) (id : CursorId)
    (s : Scans) :
    Scans.Asks p.stepping id s 0 := by
  have hstep : p.stepping = fun s => ((.ok .finished, p.stop), s) := by
    funext s
    unfold stepping
    rw [step_of_isOver h]
  rw [hstep]
  exact Scans.asks_nothing _ id s

theorem asks_stepping_of_asks {p : Pipeline} {s : Scans} (h : p.isOver = false)
    (asks : p.answer? = none) (hopen : s.IsOpen p.cursor) :
    Scans.Asks p.stepping p.cursor s
      (if p.cached then 0 else (s.cursor p.cursor).calls) := by
  have hstep : p.stepping = fun s =>
      (p.take (s.read p.cursor p.cached).1, (s.read p.cursor p.cached).2) := by
    funext s
    unfold stepping
    rw [step_of_not_isOver h, scansAfter_of_asks asks]
  rw [hstep]
  exact (Scans.asks_read hopen p.cached).map p.take

theorem asks_stepping_of_answer {p : Pipeline} {i : Interruption} (h : p.isOver = false)
    (answer : p.answer? = some (.error i)) (id : CursorId) (s : Scans) :
    Scans.Asks p.stepping id s 0 := by
  have hstep : p.stepping = fun s => ((.error i, p.countStep), s) := by
    funext s
    unfold stepping
    rw [step_of_not_isOver h, take_of_answer answer, scansAfter_of_answer answer]
  rw [hstep]
  exact Scans.asks_nothing _ id s

end Pipeline

/-! ## Single steps -/

/-- A pipeline and the table right before a step. -/
structure SingleStep where
  pipeline : Pipeline
  scans : Scans

namespace SingleStep

/-- What the step gives. -/
def result (a : SingleStep) : Except Interruption StepResult :=
  (a.pipeline.step a.scans).1

/-- The pipeline after the step. -/
def after (a : SingleStep) : Pipeline := (a.pipeline.step a.scans).2.1

/-- The table after the step. -/
def scansAfter (a : SingleStep) : Scans := (a.pipeline.step a.scans).2.2

/-- Whether the step fails although its scan was asked and gave a row. -/
def brokeOff (a : SingleStep) : Bool :=
  match a.pipeline.answer?, (a.scans.read a.pipeline.cursor a.pipeline.cached).1,
      a.result with
  | none, .ok (.row _), .error _ => true
  | _, _, _ => false

/-- What a step may do: ask the source once, and only if it is not to read what was
cached; add one row; find the end, if a limit is spent or the scan is exhausted. -/
structure KeepsContract (a : SingleStep) : Prop where
  asks : ∃ calls ≤ 1, (a.pipeline.cached = true → calls = 0) ∧
    Scans.Asks a.pipeline.stepping a.pipeline.cursor a.scans calls
  adds : ∃ added : List Value, added.length ≤ 1 ∧
    a.after.rows.toList = a.pipeline.rows.toList ++ added
  ends : a.result = .ok .finished →
    a.after.isSpent = true ∨ a.scansAfter.IsExhausted a.pipeline.cursor

/-- What a step does once an earlier one found the end: it finds the end again,
asks no source, and leaves the table and all of the pipeline as they are,
however the scan is read by now. -/
structure StandsStill (earlier later : SingleStep) : Prop where
  result : later.result = .ok .finished
  asks : Scans.Asks later.pipeline.stepping later.pipeline.cursor later.scans 0
  pipeline : later.after = earlier.after.setCached later.pipeline.cached
  scans : later.scansAfter = later.scans

variable {a : SingleStep}

theorem of_isOver (h : a.pipeline.isOver = true) :
    a.result = .ok .finished ∧ a.after = a.pipeline.stop ∧ a.scansAfter = a.scans := by
  unfold result after scansAfter
  rw [Pipeline.step_of_isOver h]
  exact ⟨rfl, rfl, rfl⟩

theorem of_not_isOver (h : a.pipeline.isOver = false) :
    a.result =
      (a.pipeline.take (a.scans.read a.pipeline.cursor a.pipeline.cached).1).1 ∧ a.after =
        (a.pipeline.take (a.scans.read a.pipeline.cursor a.pipeline.cached).1).2 ∧
      a.scansAfter = a.pipeline.scansAfter a.scans := by
  unfold result after scansAfter
  rw [Pipeline.step_of_not_isOver h]
  exact ⟨rfl, rfl, rfl⟩

theorem cursor_after (a : SingleStep) : a.after.cursor = a.pipeline.cursor :=
  a.pipeline.cursor_step a.scans

theorem asks_le_one (hopen : a.scans.IsOpen a.pipeline.cursor) :
    ∃ calls ≤ 1, (a.pipeline.cached = true → calls = 0) ∧
      Scans.Asks a.pipeline.stepping a.pipeline.cursor a.scans calls := by
  cases hover : a.pipeline.isOver with
  | true =>
    exact ⟨0, Nat.zero_le 1, fun _ => rfl, Pipeline.asks_stepping_of_isOver hover _ _⟩
  | false =>
    rcases Pipeline.answer?_of_not_isOver hover with hasks | ⟨i, hanswer⟩
    · refine ⟨_, ?_, fun hcached => if_pos hcached,
        Pipeline.asks_stepping_of_asks hover hasks hopen⟩
      split
      · exact Nat.zero_le 1
      · exact Cursor.calls_le_one _
    · exact ⟨0, Nat.zero_le 1, fun _ => rfl,
        Pipeline.asks_stepping_of_answer hover hanswer _ _⟩

/-- What a step can do: find its query over, fail without a row, find no row or
the end, or take a row, which comes out of the links, is rejected by one of them
or makes one break off. -/
inductive StepCase (a : SingleStep) : Prop
  | idle (noWork : a.pipeline.isOver = true) (result : a.result = .ok .finished)
      (after : a.after = a.pipeline.stop) (scans : a.scansAfter = a.scans)
      (whole : a.brokeOff = false)
  | failed (i : Interruption) (result : a.result = .error i)
      (after : a.after = a.pipeline.countStep)
      (live : a.pipeline.finished = false) (whole : a.brokeOff = false)
  | pending (result : a.result = .ok .pending) (after : a.after = a.pipeline.countStep)
      (live : a.pipeline.finished = false) (whole : a.brokeOff = false)
  | ended (result : a.result = .ok .finished)
      (after : a.after = a.pipeline.countStep.finish)
      (exhausted : a.scansAfter.IsExhausted a.pipeline.cursor)
      (whole : a.brokeOff = false)
  | produced (out : Value) (links : List Link) (result : a.result = .ok .produced)
      (after : a.after = { a.pipeline.countStep with
        links := links
        counters := { a.pipeline.countStep.counters with
          scanned := a.pipeline.counters.scanned + 1
          produced := a.pipeline.counters.produced + 1 }
        rows := a.pipeline.rows.push out })
      (live : a.pipeline.finished = false) (whole : a.brokeOff = false)
  | rejected (links : List Link) (result : a.result = .ok .pending)
      (after : a.after = { a.pipeline.countStep with
        links := links
        counters := { a.pipeline.countStep.counters with
          scanned := a.pipeline.counters.scanned + 1
          filtered := a.pipeline.counters.filtered + 1 } })
      (live : a.pipeline.finished = false) (whole : a.brokeOff = false)
  | broke (links : List Link) (i : Interruption) (result : a.result = .error i)
      (after : a.after = { a.pipeline.countStep with
        links := links
        counters := { a.pipeline.countStep.counters with
          scanned := a.pipeline.counters.scanned + 1 } })
      (live : a.pipeline.finished = false) (broke : a.brokeOff = true)

/-- Every step does one of these. -/
theorem stepCase (hopen : a.scans.IsOpen a.pipeline.cursor) : a.StepCase := by
  cases hover : a.pipeline.isOver with
  | true =>
    obtain ⟨hresult, hafter, hscans⟩ := of_isOver hover
    refine .idle hover hresult hafter hscans ?_
    unfold brokeOff
    rw [hresult]
    split
    · rename_i hresult'
      cases hresult'
    · rfl
  | false =>
    have hlive := Pipeline.finished_of_not_isOver hover
    obtain ⟨hresult, hafter, hscans⟩ := of_not_isOver hover
    rcases Pipeline.answer?_of_not_isOver hover with hasks | ⟨i, hanswer⟩
    · rw [Pipeline.take_of_asks hasks] at hresult hafter
      rw [Pipeline.scansAfter_of_asks hasks] at hscans
      have hended := a.scans.isExhausted_of_read hopen a.pipeline.cached
      rw [← hscans] at hended
      cases hread : (a.scans.read a.pipeline.cursor a.pipeline.cached).1 with
      | error i =>
        rw [hread] at hresult hafter
        exact .failed i hresult hafter hlive (by simp [brokeOff, hread])
      | ok progress =>
        rw [hread] at hresult hafter
        cases progress with
        | pending => exact .pending hresult hafter hlive (by simp [brokeOff, hread])
        | ended =>
          dsimp only [Pipeline.accept] at hresult hafter
          generalize Link.close _ _ = closed at hresult hafter
          cases closed with
          | error i => exact .failed i hresult hafter hlive (by simp [brokeOff, hread])
          | ok _ =>
            exact .ended hresult hafter (hended hread) (by simp [brokeOff, hread])
        | row row =>
          dsimp only [Pipeline.accept] at hresult hafter
          unfold Pipeline.receive at hresult hafter
          dsimp only at hresult hafter
          split at hresult <;> rename_i hverdict <;> rw [hverdict] at hafter
          · exact .produced _ _ hresult hafter hlive
              (by simp [brokeOff, hread, hresult])
          · exact .rejected _ hresult hafter hlive (by simp [brokeOff, hread, hresult])
          · exact .broke _ _ hresult hafter hlive
              (by simp [brokeOff, hasks, hread, hresult])
    · rw [Pipeline.take_of_answer hanswer] at hresult hafter
      exact .failed i hresult hafter hlive (by simp [brokeOff, hanswer])

/-- A step keeps the rows and adds at most one. -/
theorem StepCase.adds (h : a.StepCase) : ∃ added : List Value, added.length ≤ 1 ∧
    a.after.rows.toList = a.pipeline.rows.toList ++ added := by
  have hnone : a.after.rows = a.pipeline.rows → ∃ added : List Value, added.length ≤ 1 ∧
      a.after.rows.toList = a.pipeline.rows.toList ++ added := fun h =>
    ⟨[], Nat.zero_le 1, by rw [h, List.append_nil]⟩
  cases h with
  | idle _ _ after _ _ => exact hnone (after ▸ a.pipeline.rows_stop)
  | failed _ _ after _ _ | pending _ after _ _ | ended _ after _ _ | rejected _ _ after _ _
  | broke _ _ _ after _ _ => exact hnone (after ▸ rfl)
  | produced out _ _ after _ _ =>
    refine ⟨[out], Nat.le_refl 1, ?_⟩
    rw [after]
    exact Array.toList_push

/-- Every row that a step scans is rejected, comes out or makes a link break off. -/
theorem StepCase.balance (h : a.StepCase) {broken : Nat}
    (before : a.pipeline.counters.scanned = a.pipeline.counters.filtered +
      a.pipeline.counters.produced + broken) :
    a.after.counters.scanned =
      a.after.counters.filtered + a.after.counters.produced +
        (broken + if a.brokeOff then 1 else 0) := by
  cases h with
  | idle _ _ after _ whole =>
    rw [after, whole]
    unfold Pipeline.stop
    split <;> exact before
  | failed _ _ after _ whole | pending _ after _ whole | ended _ after _ whole =>
    rw [after, whole]
    exact before
  | produced _ _ _ after _ whole | rejected _ _ after _ whole =>
    rw [after, whole]
    dsimp only [Pipeline.countStep]
    rw [if_neg Bool.false_ne_true]
    omega
  | broke _ _ _ after _ broke =>
    rw [after, broke]
    dsimp only [Pipeline.countStep]
    rw [if_pos rfl]
    omega

/-- A step finds its query over only at a spent limit or an exhausted scan, if
the query was not found over without reason before. -/
theorem StepCase.over_of_finished (h : a.StepCase)
    (before : a.pipeline.finished = true →
      a.pipeline.isSpent = true ∨ a.scans.IsExhausted a.pipeline.cursor)
    (finished : a.after.finished = true) :
    a.after.isSpent = true ∨ a.scansAfter.IsExhausted a.pipeline.cursor := by
  cases h with
  | idle noWork _ after scans _ =>
    have hspent : a.after.isSpent = a.pipeline.isSpent := by
      rw [after]
      unfold Pipeline.stop
      split <;> rfl
    rw [hspent, scans]
    cases hfinished : a.pipeline.finished with
    | true => exact before hfinished
    | false => exact .inl (Pipeline.isSpent_of_isOver noWork hfinished).2
  | ended _ _ exhausted _ => exact .inr exhausted
  | failed _ _ after live _ | pending _ after live _ | produced _ _ _ after live _
  | rejected _ _ after live _ | broke _ _ _ after live _ =>
    have hlive : a.after.finished = a.pipeline.finished := by
      rw [after]
      rfl
    rw [hlive, live] at finished
    cases finished

theorem StepCase.finished_of_result (h : a.StepCase) (finished : a.result = .ok .finished) :
    a.after.finished = true := by
  cases h with
  | idle _ _ after _ _ => exact after ▸ a.pipeline.finished_stop
  | ended _ after _ _ => exact after ▸ rfl
  | failed _ result _ _ _ | pending result _ _ _ | produced _ _ result _ _ _
  | rejected _ result _ _ _ | broke _ _ result _ _ _ =>
    rw [result] at finished
    cases finished

/-- Links that are no faults never break off, and stay such links. -/
theorem whole_of_isSound (sound : Link.IsSound a.pipeline.links) :
    a.brokeOff = false ∧ Link.IsSound a.after.links := by
  cases hover : a.pipeline.isOver with
  | true =>
    obtain ⟨hresult, hafter, -⟩ := of_isOver hover
    refine ⟨?_, ?_⟩
    · unfold brokeOff
      rw [hresult]
      split
      · rename_i herror
        cases herror
      · rfl
    · rw [hafter]
      unfold Pipeline.stop
      split <;> exact sound
  | false =>
    obtain ⟨hresult, hafter, -⟩ := of_not_isOver hover
    cases hread : (a.scans.read a.pipeline.cursor a.pipeline.cached).1 with
    | error i =>
      rw [hread, Pipeline.take_of_asks (Pipeline.asks_of_isSound sound hover)] at hafter
      exact ⟨by simp [brokeOff, hread], hafter ▸ sound⟩
    | ok progress =>
      rw [hread] at hresult hafter
      obtain ⟨⟨result, htake⟩, hlinks⟩ := Pipeline.take_of_isSound sound hover progress
      rw [htake] at hresult
      exact ⟨by simp [brokeOff, hresult], hafter ▸ hlinks⟩

/-- Once it is finished, a query stands still. -/
theorem standsStill {earlier : SingleStep} (finished : earlier.after.finished = true)
    (same : a.pipeline = earlier.after.setCached a.pipeline.cached) :
    StandsStill earlier a := by
  have hfinished : a.pipeline.finished = true := by
    rw [same]
    exact finished
  have hover : a.pipeline.isOver = true := by
    unfold Pipeline.isOver
    rw [hfinished, Bool.true_or]
  obtain ⟨hresult, hafter, hscans⟩ := of_isOver hover
  refine ⟨hresult, Pipeline.asks_stepping_of_isOver hover _ _, ?_, hscans⟩
  rw [hafter, ← same]
  exact if_pos hfinished

end SingleStep

/-! ## Runs -/

/-- What happens to a pipeline and to the scans it may share. -/
inductive PipelineCall where
  /-- a step that reads its scan from the cache or pulls it -/
  | step (cached : Bool)
  /-- somebody else pulls a scan -/
  | pull (id : CursorId)
  | disturb (disturbance : Disturbance)

/-- What calls have left of a pipeline and the table, and the steps on the way. -/
structure PipelineRun where
  pipeline : Pipeline
  scans : Scans
  steps : List SingleStep := []

namespace PipelineRun

/-- Answer one call. -/
def answer (r : PipelineRun) : PipelineCall → PipelineRun
  | .step cached =>
    let a : SingleStep := ⟨r.pipeline.setCached cached, r.scans⟩
    ⟨a.after, a.scansAfter, r.steps ++ [a]⟩
  | .pull id => { r with scans := (r.scans.pull id).2 }
  | .disturb d => { r with scans := r.scans.disturb d }

/-- Answer calls in order. -/
def answerAll (r : PipelineRun) (calls : List PipelineCall) : PipelineRun :=
  calls.foldl answer r

/-- A chain of links over a new scan of a source. -/
def start (s : Scans) (source : Source) (kind : ScanKind) (links : List Link) :
    PipelineRun where
  pipeline := { kind := kind, cursor := (s.openCursor source).1, links := links }
  scans := (s.openCursor source).2

/-- What holds of a run at every point. -/
structure Kept (r : PipelineRun) : Prop where
  isOpen : r.scans.IsOpen r.pipeline.cursor
  reason : r.pipeline.finished = true →
    r.pipeline.isSpent = true ∨ r.scans.IsExhausted r.pipeline.cursor
  contract : ∀ a ∈ r.steps, a.KeepsContract
  /-- since a step found the end the pipeline is the same -/
  ended : ∀ a ∈ r.steps, a.result = .ok .finished →
    a.after.finished = true ∧ r.pipeline = a.after.setCached r.pipeline.cached
  still : r.steps.Pairwise fun a b => a.result = .ok .finished → a.StandsStill b
  balance : r.pipeline.counters.scanned =
    r.pipeline.counters.filtered + r.pipeline.counters.produced +
      r.steps.countP SingleStep.brokeOff

theorem kept_start (s : Scans) (source : Source) (kind : ScanKind) (links : List Link) :
    (start s source kind links).Kept where
  isOpen := s.isOpen_openCursor_self source
  reason := fun h => nomatch h
  contract := fun _ ha => nomatch ha
  ended := fun _ ha => nomatch ha
  still := .nil
  balance := rfl

theorem Kept.step {r : PipelineRun} (h : r.Kept) (cached : Bool) :
    (r.answer (.step cached)).Kept := by
  let a : SingleStep := ⟨r.pipeline.setCached cached, r.scans⟩
  have hopen : a.scans.IsOpen a.pipeline.cursor := h.isOpen
  have hcase := a.stepCase hopen
  have hover := hcase.over_of_finished h.reason
  obtain ⟨calls, hle, hcached, hasks⟩ := a.asks_le_one hopen
  have hcursor : a.after.cursor = r.pipeline.cursor := a.cursor_after
  -- a step that comes after the end was found stands still
  have hstill : ∀ earlier ∈ r.steps, earlier.result = .ok .finished →
      earlier.after.finished = true ∧ earlier.StandsStill a := by
    intro earlier hearlier hfinished
    obtain ⟨hafter, hsame⟩ := h.ended earlier hearlier hfinished
    refine ⟨hafter, SingleStep.standsStill hafter ?_⟩
    show r.pipeline.setCached cached = _
    rw [hsame]
    rfl
  constructor
  · show a.scansAfter.IsOpen a.after.cursor
    rw [hcursor]
    exact hasks.onlyMoves.isOpen hopen
  · intro hfinished
    show a.after.isSpent = true ∨ a.scansAfter.IsExhausted a.after.cursor
    rw [hcursor]
    exact hover hfinished
  · exact List.forall_mem_append.mpr ⟨h.contract, List.forall_mem_singleton.mpr
      ⟨⟨calls, hle, hcached, hasks⟩, hcase.adds,
        fun hresult => hover (hcase.finished_of_result hresult)⟩⟩
  · refine List.forall_mem_append.mpr ⟨?_, List.forall_mem_singleton.mpr ?_⟩
    · intro earlier hearlier hfinished
      obtain ⟨hafter, hstands⟩ := hstill earlier hearlier hfinished
      refine ⟨hafter, ?_⟩
      show a.after = earlier.after.setCached a.after.cached
      rw [hstands.pipeline]
      rfl
    · exact fun hresult => ⟨hcase.finished_of_result hresult, rfl⟩
  · refine List.pairwise_append.mpr ⟨h.still, List.pairwise_singleton _ _, ?_⟩
    intro earlier hearlier later hlater hfinished
    rw [List.mem_singleton.mp hlater]
    exact (hstill earlier hearlier hfinished).2
  · have hbalance := hcase.balance h.balance
    show a.after.counters.scanned = _ + _ + (r.steps ++ [a]).countP _
    rw [hbalance, List.countP_append, List.countP_singleton]
    rfl

theorem Kept.answer {r : PipelineRun} (h : r.Kept) (call : PipelineCall) :
    (r.answer call).Kept := by
  cases call with
  | step cached => exact h.step cached
  | pull id =>
    have hover := fun hfinished =>
      (h.reason hfinished).imp_right fun hended =>
        Scans.isExhausted_pull h.isOpen hended id
    exact ⟨(r.scans.onlyMoves_pull id).isOpen h.isOpen, hover, h.contract, h.ended,
      h.still, h.balance⟩
  | disturb d => exact ⟨h.isOpen, h.reason, h.contract, h.ended, h.still, h.balance⟩

theorem Kept.answerAll {r : PipelineRun} (h : r.Kept) (calls : List PipelineCall) :
    (r.answerAll calls).Kept := by
  induction calls generalizing r with
  | nil => exact h
  | cons call calls ih => exact ih (h.answer call)

/-- A chain without faults never breaks off. -/
theorem whole_answerAll {r : PipelineRun} (sound : Link.IsSound r.pipeline.links)
    (whole : ∀ a ∈ r.steps, a.brokeOff = false) (calls : List PipelineCall) :
    ∀ a ∈ (r.answerAll calls).steps, a.brokeOff = false := by
  induction calls generalizing r with
  | nil => exact whole
  | cons call calls ih =>
    cases call with
    | step cached =>
      obtain ⟨hwhole, hsound⟩ :=
        SingleStep.whole_of_isSound (a := ⟨r.pipeline.setCached cached, r.scans⟩) sound
      exact ih hsound
        (List.forall_mem_append.mpr ⟨whole, List.forall_mem_singleton.mpr hwhole⟩)
    | pull id => exact ih sound whole
    | disturb d => exact ih sound whole

/-- The contract of a step, over every run of every chain of links over a new
scan of any source.  Every step asks the source at most once and not at all when
it reads what was cached, adds at most one row, and finds the end only at a
spent limit or an exhausted scan.  Once a step has found the end all later ones
do so too, without asking and without a change.  Every scanned row was rejected,
came out, or was given to a step that then failed, of which there is none unless
a link is a fault. -/
theorem steps_keep_contract (s : Scans) (source : Source) (kind : ScanKind)
    (links : List Link) (calls : List PipelineCall) :
    let r := (start s source kind links).answerAll calls
    (∀ a ∈ r.steps, a.KeepsContract) ∧
      (r.steps.Pairwise fun a b => a.result = .ok .finished → a.StandsStill b) ∧
      r.pipeline.counters.scanned = r.pipeline.counters.filtered +
        r.pipeline.counters.produced +
        r.steps.countP SingleStep.brokeOff ∧
      (Link.IsSound links → ∀ a ∈ r.steps, a.brokeOff = false) := by
  have h := (kept_start s source kind links).answerAll calls
  exact ⟨h.contract, h.still, h.balance, fun sound =>
    whole_answerAll (r := start s source kind links) sound
      (fun a ha => nomatch ha) calls⟩

/-- An operator that is busy for two steps keeps its scan from being asked, and
lets it be asked then. -/
example :
    let busy : Fault := { asked := fun c =>
      if c.steps ≤ 2 then some (.failed ⟨.transactionUnavailable, "busy"⟩) else none }
    let r :=
      (start default (.script [.row (.nat 1)]) .allNodes
        [.fault busy, .limit 1 1]).answerAll
      [.step false, .step false, .step false, .step false]
    r.steps.map (fun a => a.result.toOption) =
      [none, none, some .produced, some .finished] ∧
      (r.scans.cursor r.pipeline.cursor).pulls = 1 := by
  decide +kernel

end PipelineRun

end Lockstep
