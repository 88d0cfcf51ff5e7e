import Lockstep.WorkerPool
set_option autoImplicit false

/-!
# When a pool looks idle

A job that a worker takes goes from one count to the other in two steps, and
whoever asks what is in flight reads the two counts one after the other, while
workers go on.  It is the order of both pairs that keeps every job in sight.
A worker raises the count of running jobs before it lowers that of waiting
ones, so when no job is found waiting, every one was counted as running by
then.  The count of running jobs is read after that, so it still has every job
that has not finished.
-/

namespace Lockstep

/-- How far a job has got. -/
inductive JobStage where
  | waiting
  /-- a worker has counted it as running, and it is still counted as waiting -/
  | handedOver
  | running
  /-- it is done, or has crashed -/
  | finished (crash : Option Crash)
  deriving DecidableEq, Repr, Inhabited

namespace JobStage

/-- Whether the job is counted as waiting. -/
def isQueued : JobStage → Bool
  | .waiting | .handedOver => true
  | _ => false

/-- Whether the job is counted as running. -/
def isRunning : JobStage → Bool
  | .handedOver | .running => true
  | _ => false

/-- Whether the job is done, normally or by a crash. -/
def isFinished : JobStage → Bool
  | .finished _ => true
  | _ => false

theorem isFinished_of_uncounted {job : JobStage} (taken : job.isQueued = false)
    (stopped : job.isRunning = false) : job.isFinished = true := by
  cases job with
  | waiting | handedOver => cases taken
  | running => cases stopped
  | finished crash => rfl

theorem uncounted_of_isFinished {job : JobStage} (finished : job.isFinished = true) :
    job.isQueued = false ∧ job.isRunning = false := by
  cases job with
  | finished crash => exact ⟨rfl, rfl⟩
  | waiting | handedOver | running => cases finished

end JobStage

/-- How far the shutdown of a pool has got. -/
inductive Closing where
  /-- nobody has asked for it -/
  | notAsked
  /-- it will read how many jobs wait -/
  | looking
  /-- it has read how many jobs wait, and will read how many run -/
  | loaded (queued : Nat)
  /-- it has found no job in flight and has returned -/
  | returned
  deriving DecidableEq, Repr, Inhabited

/-- A pool with all jobs that it ever took, in the order they were submitted. -/
structure Workload where
  pool : WorkerPool
  jobs : List JobStage := []
  closing : Closing := .notAsked
  deriving Repr, Inhabited

/-- A step that is made at once, by whoever submits jobs, by a worker at a job,
or by a shutdown. -/
inductive PoolStep where
  | submit
  /-- count a waiting job as running -/
  | raise (job : Nat)
  /-- count it as waiting no more -/
  | lower (job : Nat)
  /-- count a job that is done, or has crashed, as running no more -/
  | finish (job : Nat) (crash : Option Crash)
  | shutDown
  | loadQueued
  | loadRunning
  deriving DecidableEq, Repr, Inhabited

namespace Workload

/-- A new pool. -/
def ofSize (name : String) (size : Nat) : Workload := { pool := .ofSize name size }

/-- Bring a job to a stage. -/
def setJob (w : Workload) (job : Nat) (stage : JobStage) (pool : WorkerPool) :
    Workload :=
  { w with jobs := w.jobs.set job stage, pool := pool }

/-- Make one step.  A step that is not the next one of its job or of the
shutdown changes nothing. -/
def answer (w : Workload) : PoolStep → Workload
  | .submit =>
    match w.pool.submit with
    | .error _ => w
    | .ok pool => { w with jobs := w.jobs ++ [.waiting], pool := pool }
  | .raise job =>
    match w.jobs[job]? with
    | some .waiting => w.setJob job .handedOver w.pool.raiseRunning
    | _ => w
  | .lower job =>
    match w.jobs[job]? with
    | some .handedOver => w.setJob job .running w.pool.lowerQueued
    | _ => w
  | .finish job crash =>
    match w.jobs[job]? with
    | some .running => w.setJob job (.finished crash) w.pool.finish
    | _ => w
  | .shutDown =>
    match w.closing with
    | .notAsked => { w with pool := w.pool.shutDown, closing := .looking }
    | _ => w
  | .loadQueued =>
    match w.closing with
    | .looking => { w with closing := .loaded w.pool.queued }
    | _ => w
  | .loadRunning =>
    match w.closing with
    | .loaded queued =>
      { w with closing := if queued + w.pool.running = 0 then .returned else .looking }
    | _ => w

/-- Make steps in order. -/
def answerAll (w : Workload) (steps : List PoolStep) : Workload := steps.foldl answer w

theorem pool_answerAll_alone {w : Workload} (takes : w.pool.isShutDown = false)
    (crash : Option Crash) :
    (w.answerAll [.submit, .raise w.jobs.length, .lower w.jobs.length,
      .finish w.jobs.length crash]).pool = w.pool.enqueue.runOne := by
  simp [answerAll, answer, setJob, WorkerPool.submit, takes, WorkerPool.runOne]

variable {w : Workload}

theorem answer_submit_of_closed (closed : w.pool.isShutDown = true) :
    w.answer .submit = w := by
  simp [answer, WorkerPool.submit, closed]

theorem answer_submit_of_open (takes : w.pool.isShutDown = false) :
    w.answer .submit =
      { w with jobs := w.jobs ++ [.waiting], pool := w.pool.enqueue } := by
  simp [answer, WorkerPool.submit, takes]

/-! ## Counts -/

/-- Each count is the number of jobs that it is to count. -/
structure Counted (w : Workload) : Prop where
  queued : w.pool.queued = w.jobs.countP JobStage.isQueued
  running : w.pool.running = w.jobs.countP JobStage.isRunning

theorem Counted.setJob (h : w.Counted) {job : Nat} {before stage : JobStage}
    {pool : WorkerPool} (found : w.jobs[job]? = some before)
    (queued : pool.queued = w.pool.queued - before.isQueued.toNat +
      stage.isQueued.toNat)
    (running : pool.running = w.pool.running - before.isRunning.toNat +
      stage.isRunning.toNat) :
    (w.setJob job stage pool).Counted := by
  obtain ⟨hjob, hbefore⟩ := List.getElem?_eq_some_iff.mp found
  have hset (p : JobStage → Bool) : (w.jobs.set job stage).countP p =
      w.jobs.countP p - (p before).toNat + (p stage).toNat := by
    rw [List.countP_set hjob, hbefore]
    cases p before <;> cases p stage <;> rfl
  exact ⟨(queued.trans (by rw [h.queued])).trans (hset _).symm,
    (running.trans (by rw [h.running])).trans (hset _).symm⟩

theorem Counted.answer (h : w.Counted) (step : PoolStep) : (w.answer step).Counted := by
  cases step with
  | submit =>
    cases hclosed : w.pool.isShutDown with
    | true =>
      rw [answer_submit_of_closed hclosed]
      exact h
    | false =>
      rw [answer_submit_of_open hclosed]
      refine ⟨?_, ?_⟩
      · rw [List.countP_append, ← h.queued]
        rfl
      · rw [List.countP_append, ← h.running]
        rfl
  | raise job =>
    unfold Workload.answer
    dsimp only
    split
    · rename_i hfound
      have hone : 0 < w.pool.queued := by
        rw [h.queued]
        exact List.countP_pos_iff.mpr ⟨.waiting, List.mem_of_getElem? hfound, rfl⟩
      exact h.setJob hfound (Nat.sub_add_cancel hone).symm rfl
    · exact h
  | lower job =>
    unfold Workload.answer
    dsimp only
    split
    · rename_i hfound
      have hone : 0 < w.pool.running := by
        rw [h.running]
        exact List.countP_pos_iff.mpr ⟨.handedOver, List.mem_of_getElem? hfound, rfl⟩
      exact h.setJob hfound rfl (Nat.sub_add_cancel hone).symm
    · exact h
  | finish job crash =>
    unfold Workload.answer
    dsimp only
    split
    · rename_i hfound
      exact h.setJob hfound rfl rfl
    · exact h
  | shutDown | loadQueued | loadRunning =>
    unfold Workload.answer
    dsimp only
    split
    · exact ⟨h.queued, h.running⟩
    · exact h

/-! ## What a shutdown knows -/

/-- Whether no job is counted as waiting. -/
def AllTaken (w : Workload) : Prop := ∀ job ∈ w.jobs, job.isQueued = false

/-- Whether every job is done. -/
def AllFinished (w : Workload) : Prop := ∀ job ∈ w.jobs, job.isFinished = true

theorem Counted.allTaken (h : w.Counted) (none : w.pool.queued = 0) : w.AllTaken := by
  rw [h.queued, List.countP_eq_zero] at none
  exact fun job hjob => Bool.eq_false_iff.mpr (none job hjob)

theorem Counted.allFinished (h : w.Counted) (taken : w.AllTaken)
    (none : w.pool.running = 0) :
    w.AllFinished := by
  rw [h.running, List.countP_eq_zero] at none
  exact fun job hjob =>
    JobStage.isFinished_of_uncounted (taken job hjob)
      (Bool.eq_false_iff.mpr (none job hjob))

/-- When every job has finished, none is in flight. -/
theorem Counted.inFlight (h : w.Counted) (finished : w.AllFinished) :
    w.pool.inFlight = 0 := by
  have huncounted := fun job hjob =>
    JobStage.uncounted_of_isFinished (finished job hjob)
  have hqueued : w.pool.queued = 0 := by
    rw [h.queued, List.countP_eq_zero]
    exact fun job hjob => Bool.eq_false_iff.mp (huncounted job hjob).1
  have hrunning : w.pool.running = 0 := by
    rw [h.running, List.countP_eq_zero]
    exact fun job hjob => Bool.eq_false_iff.mp (huncounted job hjob).2
  unfold WorkerPool.inFlight
  rw [hqueued, hrunning]

/-- Jobs that were taken go on to their ends, and only submitting brings in others. -/
theorem AllTaken.answer (h : w.AllTaken) {step : PoolStep}
    (refused : step = .submit → w.pool.isShutDown = true) :
    (w.answer step).AllTaken := by
  -- a job that is raised or lowered would be counted as waiting
  have hnone {job : Nat} {stage : JobStage} (found : w.jobs[job]? = some stage)
      (queued : stage.isQueued = true) : False := by
    have htaken := h stage (List.mem_of_getElem? found)
    rw [queued] at htaken
    cases htaken
  cases step with
  | submit =>
    rw [answer_submit_of_closed (refused rfl)]
    exact h
  | raise job | lower job =>
    unfold Workload.answer
    dsimp only
    split
    · rename_i hfound
      exact (hnone hfound rfl).elim
    · exact h
  | finish job crash =>
    unfold Workload.answer
    dsimp only
    split
    · intro stage hstage
      rcases List.mem_or_eq_of_mem_set hstage with hstage | rfl
      · exact h stage hstage
      · rfl
    · exact h
  | shutDown | loadQueued | loadRunning =>
    unfold Workload.answer
    dsimp only
    split <;> exact h

theorem AllFinished.answer (h : w.AllFinished) {step : PoolStep}
    (refused : step = .submit → w.pool.isShutDown = true) :
    (w.answer step).AllFinished := by
  cases step with
  | submit =>
    rw [answer_submit_of_closed (refused rfl)]
    exact h
  | raise job | lower job | finish job crash =>
    unfold Workload.answer
    dsimp only
    split
    · rename_i hfound
      cases h _ (List.mem_of_getElem? hfound)
    · exact h
  | shutDown | loadQueued | loadRunning =>
    unfold Workload.answer
    dsimp only
    split <;> exact h

/-- The counts are right, and what a shutdown has found of the jobs still
holds: it takes no more jobs, so jobs that were taken or finished when it
looked are the only ones. -/
structure Sound (w : Workload) : Prop where
  counted : w.Counted
  refuses : w.closing ≠ .notAsked → w.pool.isShutDown = true
  taken : w.closing = .loaded 0 → w.AllTaken
  finished : w.closing = .returned → w.AllFinished

theorem sound_ofSize (name : String) (size : Nat) : (ofSize name size).Sound where
  counted := ⟨rfl, rfl⟩
  refuses := fun hasked => absurd rfl hasked
  taken := nofun
  finished := nofun

/-- A step of a worker or of whoever submits jobs leaves the shutdown where it is. -/
theorem Sound.of_closing (h : w.Sound) {step : PoolStep}
    (same : (w.answer step).closing = w.closing)
    (closed : (w.answer step).pool.isShutDown = w.pool.isShutDown) :
    (w.answer step).Sound where
  counted := h.counted.answer step
  refuses := fun hasked => closed.trans (h.refuses (same ▸ hasked))
  taken := fun hloaded => by
    rw [same] at hloaded
    refine (h.taken hloaded).answer fun _ => h.refuses ?_
    rw [hloaded]
    nofun
  finished := fun hreturned => by
    rw [same] at hreturned
    refine (h.finished hreturned).answer fun _ => h.refuses ?_
    rw [hreturned]
    nofun

theorem Sound.answer (h : w.Sound) (step : PoolStep) : (w.answer step).Sound := by
  have hcounted := h.counted.answer step
  cases step with
  | submit =>
    cases hclosed : w.pool.isShutDown with
    | true =>
      rw [answer_submit_of_closed hclosed]
      exact h
    | false =>
      refine h.of_closing ?_ ?_
      · rw [answer_submit_of_open hclosed]
      · rw [answer_submit_of_open hclosed]
        rfl
  | raise job | lower job | finish job crash =>
    refine h.of_closing ?_ ?_
    all_goals
      unfold Workload.answer
      dsimp only
      split <;> rfl
  | shutDown =>
    unfold Workload.answer at hcounted ⊢
    dsimp only at hcounted ⊢
    split at hcounted
    · exact ⟨hcounted, fun _ => rfl, nofun, nofun⟩
    · exact h
  | loadQueued =>
    unfold Workload.answer at hcounted ⊢
    dsimp only at hcounted ⊢
    split at hcounted
    · rename_i hlooking
      refine ⟨hcounted, fun _ => h.refuses (by rw [hlooking]; nofun),
        fun hloaded => ?_, nofun⟩
      exact h.counted.allTaken (Closing.loaded.inj hloaded)
    · exact h
  | loadRunning =>
    unfold Workload.answer at hcounted ⊢
    dsimp only at hcounted ⊢
    split at hcounted
    · rename_i queued hloaded
      have hrefuses := h.refuses (by rw [hloaded]; nofun)
      by_cases hidle : queued + w.pool.running = 0
      · obtain ⟨rfl, hrunning⟩ := Nat.add_eq_zero_iff.mp hidle
        rw [if_pos hidle] at hcounted ⊢
        exact ⟨hcounted, fun _ => hrefuses, nofun,
          fun _ => h.counted.allFinished (h.taken hloaded) hrunning⟩
      · rw [if_neg hidle] at hcounted ⊢
        exact ⟨hcounted, fun _ => hrefuses, nofun, nofun⟩
    · exact h

theorem Sound.answerAll (h : w.Sound) (steps : List PoolStep) :
    (w.answerAll steps).Sound := by
  induction steps generalizing w with
  | nil => exact h
  | cons step steps ih => exact ih (h.answer step)

/-- Jobs that were taken are the only ones while none is submitted. -/
theorem AllTaken.answerAll (h : w.AllTaken) {steps : List PoolStep}
    (unsubmitted : .submit ∉ steps) :
    (w.answerAll steps).AllTaken := by
  induction steps generalizing w with
  | nil => exact h
  | cons step steps ih =>
    obtain ⟨hstep, hsteps⟩ := List.ne_and_not_mem_of_not_mem_cons unsubmitted
    exact ih (h.answer fun hsubmit => absurd hsubmit.symm hstep) hsteps

/-- Whatever steps were made before and come in between: if the number of waiting
jobs, and then that of running ones, add up to zero and no job was submitted in
between, then every job has finished.  So a shutdown that has returned has seen
every job finish; and when every job has, the pool shows none in flight. -/
theorem finished_of_idle_loads (name : String) (size : Nat)
    (earlier between : List PoolStep) (unsubmitted : .submit ∉ between) :
    let s := (ofSize name size).answerAll earlier
    let s' := s.answerAll between
    (s.pool.queued + s'.pool.running = 0 → ∀ job ∈ s'.jobs, job.isFinished = true) ∧
      (s.closing = .returned → ∀ job ∈ s.jobs, job.isFinished = true) ∧
      ((∀ job ∈ s.jobs, job.isFinished = true) → s.pool.inFlight = 0) := by
  intro s s'
  have hsound : s.Sound := (sound_ofSize name size).answerAll earlier
  have hsound' : s'.Sound := hsound.answerAll between
  refine ⟨fun hidle => ?_, hsound.finished, hsound.counted.inFlight⟩
  obtain ⟨hqueued, hrunning⟩ := Nat.add_eq_zero_iff.mp hidle
  exact hsound'.counted.allFinished
    ((hsound.counted.allTaken hqueued).answerAll unsubmitted) hrunning

/-- Two jobs run when the first count is read; one ends and the other crashes
before the second is, and by then the shutdown has returned. -/
theorem finished_of_idle_loads_two :
    let s := (ofSize "rows" 2).answerAll
      [.submit, .raise 0, .submit, .lower 0, .raise 1, .lower 1, .shutDown, .loadQueued]
    let s' := s.answerAll [.finish 0 none, .finish 1 (some .other), .loadRunning]
    s.pool.running = 2 ∧ s.pool.queued + s'.pool.running = 0 ∧
      (∀ job ∈ s'.jobs, job.isFinished = true) ∧ s'.jobs.length = 2 ∧
      s'.closing = .returned ∧
      s'.pool.inFlight = 0 := by
  intro s s'
  obtain ⟨hfinished, -, -⟩ := finished_of_idle_loads "rows" 2
    [.submit, .raise 0, .submit, .lower 0, .raise 1, .lower 1, .shutDown, .loadQueued]
    [.finish 0 none, .finish 1 (some .other), .loadRunning] (by decide)
  exact ⟨by decide, by decide, hfinished (by decide), by decide, by decide, by decide⟩

/-- Read the other way round, the counts miss a job that is taken between the two. -/
example :
    let s := (ofSize "rows" 2).answerAll [.submit]
    let s' := s.answerAll [.raise 0, .lower 0]
    s.pool.running + s'.pool.queued = 0 ∧ s'.jobs = [.running] := by decide

end Workload

end Lockstep
