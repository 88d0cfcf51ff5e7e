import Lockstep.Proofs.Pipeline.Alone
set_option autoImplicit false

/-!
# What a run costs

A pipeline without faults that is stepped by itself over a quiet scan pulls the
scan once in every step, until a step finds the end.  That last step has pulled
too if it was the scan that came to its end, and has not if it was a limit.  So
a run has a number of steps and a number of pulls, the same or one less, and
before its end it has made one pull for every step.
-/

namespace Lockstep

/-- The table after so many pulls of one cursor. -/
def Scans.pullTimes (s : Scans) (id : CursorId) : Nat → Scans
  | 0 => s
  | count + 1 => ((s.pullTimes id count).pull id).2

namespace Pipeline

/-! ## Counting steps -/

theorem steps_succ (count : Nat) (p : Pipeline) (s : Scans) :
    steps (count + 1) p s =
      (((steps count p s).1.step (steps count p s).2).2.1,
        ((steps count p s).1.step (steps count p s).2).2.2) := by
  induction count generalizing p s with
  | zero => rfl
  | succ count ih => exact ih (p.step s).2.1 (p.step s).2.2

theorem steps_add (count more : Nat) (p : Pipeline) (s : Scans) :
    steps (count + more) p s = steps more (steps count p s).1 (steps count p s).2 := by
  induction more with
  | zero => rfl
  | succ more ih => rw [← Nat.add_assoc, steps_succ, steps_succ, ih]

theorem finished_receive (p : Pipeline) (row : Value) :
    (p.receive row).2.finished = p.finished := by
  unfold receive
  dsimp only
  split <;> rfl

/-- The pipeline and its scan are at their start, and no read of the scan fails. -/
structure Begins (p : Pipeline) (s : Scans) : Prop where
  fresh : p.cached = false
  sound : Link.IsSound p.links
  unfinished : p.finished = false
  uncounted : p.counters.steps = 0
  quiet : s.IsQuiet p.cursor
  unpulled : (s.cursor p.cursor).pulls = 0
  unexhausted : (s.cursor p.cursor).isExhausted = false

/-- After so many steps the pipeline has not found its end, and has pulled its
scan in every step. -/
structure Underway (p : Pipeline) (s : Scans) (count : Nat) (q : Pipeline)
    (s' : Scans) : Prop where
  fresh : q.cached = false
  sound : Link.IsSound q.links
  cursor : q.cursor = p.cursor
  unfinished : q.finished = false
  steps : q.counters.steps = count
  quiet : s'.IsQuiet p.cursor
  scans : s' = s.pullTimes p.cursor count
  pulls : (s'.cursor p.cursor).pulls = count
  unexhausted : (s'.cursor p.cursor).isExhausted = false

/-- What the next step of a pipeline that is underway can come to. -/
inductive NextStep (p : Pipeline) (s : Scans) (count : Nat) (q : Pipeline)
    (s' : Scans) :
    Pipeline × Scans → Prop
  /-- a limit was found spent -/
  | spent {q' : Pipeline} (stopped : q.isOver = true) (finished : q'.finished = true)
      (steps : q'.counters.steps = count + 1) : NextStep p s count q s' (q', s')
  /-- the scan was found exhausted -/
  | ended {q' : Pipeline} {s'' : Scans} (live : q.isOver = false)
      (finished : q'.finished = true)
      (steps : q'.counters.steps = count + 1)
      (scans : s'' = s.pullTimes p.cursor (count + 1))
      (pulls : (s''.cursor p.cursor).pulls = count + 1) :
        NextStep p s count q s' (q', s'')
  /-- a row was taken -/
  | went {q' : Pipeline} {s'' : Scans} (live : q.isOver = false)
      (underway : Underway p s (count + 1) q' s'') : NextStep p s count q s' (q', s'')

theorem Underway.nextStep {p q : Pipeline} {s s' : Scans} {count : Nat}
    (h : Underway p s count q s') :
    NextStep p s count q s' ((q.step s').2.1, (q.step s').2.2) := by
  cases hover : q.isOver with
  | true =>
    rw [step_of_isOver hover]
    refine .spent hover q.finished_stop ?_
    unfold stop
    rw [h.unfinished]
    exact congrArg (· + 1) h.steps
  | false =>
    have hread : s'.read q.cursor q.cached = s'.pull p.cursor := by
      rw [h.fresh, h.cursor]
      rfl
    have hscans : (s'.pull p.cursor).2 = s.pullTimes p.cursor (count + 1) := by
      rw [h.scans]
      rfl
    have hcase := Scans.pullCase h.quiet.isOpen
    obtain ⟨⟨progress, hpull⟩, hquiet⟩ := h.quiet.pull
    rw [hpull] at hcase
    have hasks := asks_of_isSound h.sound hover
    rw [step_of_not_isOver hover, scansAfter_of_asks hasks, hread, hpull]
    generalize (s'.pull p.cursor).2 = s'' at hscans hquiet hcase
    generalize hc : s''.cursor p.cursor = c at hcase
    generalize s''.graph = g at hcase
    have hsteps : (q.take (.ok progress)).2.counters.steps = count + 1 := by
      rw [steps_take]
      exact congrArg (· + 1) h.steps
    cases hcase with
    | again _ ended =>
      rw [h.unexhausted] at ended
      cases ended
    | @row _ _ row _ _ _ latest pulls _ _ =>
      have hscan := q.sameScan_take (.ok (.row row))
      refine .went hover
        ⟨hscan.cached.trans h.fresh, (take_of_isSound h.sound hover _).2,
        hscan.cursor.trans h.cursor, ?_, hsteps, hquiet, hscans, ?_, ?_⟩
      · rw [take_of_asks hasks]
        exact (q.countStep.finished_receive row).trans h.unfinished
      · rw [hc, pulls, h.pulls]
      · rw [hc, Cursor.isExhausted, latest]
    | ended _ _ _ _ pulls _ _ =>
      refine .ended hover ?_ hsteps hscans ?_
      · rw [take_ended h.sound hover]
        rfl
      · rw [hc, pulls, h.pulls]

theorem Begins.underway {p : Pipeline} {s : Scans} (h : Begins p s) :
    Underway p s 0 p s :=
  ⟨h.fresh, h.sound, rfl, h.unfinished, h.uncounted, h.quiet, rfl, h.unpulled,
    h.unexhausted⟩

/-! ## The last step -/

/-- The step that finds the end, behind `last` others. -/
structure EndsAfter (p : Pipeline) (s : Scans) (last : Nat) : Prop where
  underway : Underway p s last (steps last p s).1 (steps last p s).2
  next : NextStep p s last (steps last p s).1 (steps last p s).2 (steps (last + 1) p s)
  finished : (steps (last + 1) p s).1.finished = true

namespace Begins

variable {p : Pipeline} {s : Scans}

/-- After any number of steps the pipeline is underway, or it has
found its end before. -/
theorem cases (h : Begins p s) (count : Nat) :
    Underway p s count (steps count p s).1 (steps count p s).2 ∨
      ∃ last, last < count ∧ EndsAfter p s last := by
  induction count with
  | zero => exact .inl h.underway
  | succ count ih =>
    rcases ih with hunderway | ⟨last, hlast, hends⟩
    · have hnext := hunderway.nextStep
      rw [← steps_succ] at hnext
      cases hfinished : (steps (count + 1) p s).1.finished with
      | true => exact .inr ⟨count, Nat.lt_succ_self _, hunderway, hnext, hfinished⟩
      | false =>
        generalize steps (count + 1) p s = after at hnext hfinished
        cases hnext with
        | spent _ finished _ | ended _ finished _ _ _ =>
          rw [finished] at hfinished
          cases hfinished
        | went _ underway => exact .inl underway
    · exact .inr ⟨last, Nat.lt_succ_of_lt hlast, hends⟩

theorem exists_endsAfter (h : Begins p s) :
    ∃ last, last ≤ (s.upcoming p.cursor).length ∧
    EndsAfter p s last := by
  have hfinished := (steps_of_isQuiet _ h.fresh h.sound h.quiet (Nat.le_refl _)).1
  rcases h.cases ((s.upcoming p.cursor).length + 1)
    with hunderway | ⟨last, hlast, hends⟩
  · rw [hunderway.unfinished] at hfinished
    cases hfinished
  · exact ⟨last, Nat.le_of_lt_succ hlast, hends⟩

end Begins

namespace EndsAfter

variable {p : Pipeline} {s : Scans} {last count : Nat}

theorem steps_eq (h : EndsAfter p s last) (hlt : last < count) :
    steps count p s = steps (last + 1) p s := by
  obtain ⟨more, rfl⟩ := Nat.exists_eq_add_of_lt hlt
  rw [Nat.add_right_comm, steps_add, steps_of_finished h.finished]

theorem underway_of_le (h : EndsAfter p s last) (begins : Begins p s)
    (hle : count ≤ last) :
    Underway p s count (steps count p s).1 (steps count p s).2 := by
  refine (begins.cases count).resolve_right ?_
  rintro ⟨earlier, hlt, hends⟩
  -- otherwise it would have found the end before its last step
  have hfinished := hends.finished
  rw [← hends.steps_eq (Nat.lt_of_lt_of_le hlt hle), h.underway.unfinished] at hfinished
  cases hfinished

theorem finished_iff (h : EndsAfter p s last) (begins : Begins p s) :
    (steps count p s).1.finished = true ↔ last < count := by
  constructor
  · intro hfinished
    refine Nat.lt_of_not_le fun hle => ?_
    rw [(h.underway_of_le begins hle).unfinished] at hfinished
    cases hfinished
  · intro hlt
    rw [h.steps_eq hlt]
    exact h.finished

end EndsAfter

/-! ## The cost of a run -/

/-- The pipeline and the scans when the pipeline has found its end. -/
def run (p : Pipeline) (s : Scans) : Pipeline × Scans :=
  steps ((s.upcoming p.cursor).length + 1) p s

/-- How many steps the pipeline takes to find its end. -/
def stepCost (p : Pipeline) (s : Scans) : Nat := (p.run s).1.counters.steps

/-- How often the pipeline pulls its scan until then. -/
def pullCost (p : Pipeline) (s : Scans) : Nat := ((p.run s).2.cursor p.cursor).pulls

namespace Begins

variable {p : Pipeline} {s : Scans} {count : Nat}

/-- The costs are those of the last step. -/
theorem exists_last (h : Begins p s) : ∃ last, last ≤ (s.upcoming p.cursor).length ∧
    EndsAfter p s last ∧ p.stepCost s = last + 1 ∧ p.run s = steps (last + 1) p s ∧
    (p.pullCost s = last ∧ (steps last p s).1.isOver = true ∧
        (p.run s).2 = s.pullTimes p.cursor last ∨
      p.pullCost s = last + 1 ∧ (steps last p s).1.isOver = false ∧
        (p.run s).2 = s.pullTimes p.cursor (last + 1)) := by
  obtain ⟨last, hlast, hends⟩ := h.exists_endsAfter
  have hrun : p.run s = steps (last + 1) p s := hends.steps_eq (Nat.lt_succ_of_le hlast)
  have hnext := hends.next
  have hfinished := hends.finished
  refine ⟨last, hlast, hends, ?_⟩
  unfold stepCost pullCost
  rw [hrun]
  generalize steps (last + 1) p s = final at hnext hfinished
  cases hnext with
  | spent stopped _ steps =>
    exact ⟨steps, rfl, .inl ⟨hends.underway.pulls, stopped, hends.underway.scans⟩⟩
  | ended live _ steps scans pulls => exact ⟨steps, rfl, .inr ⟨pulls, live, scans⟩⟩
  | went _ underway =>
    rw [underway.unfinished] at hfinished
    cases hfinished

/-- The cost in steps is the first number of steps after which the pipeline
has found its end. -/
theorem finished_steps_iff (h : Begins p s) :
    (steps count p s).1.finished = true ↔ p.stepCost s ≤ count := by
  obtain ⟨last, -, hends, hcost, -⟩ := h.exists_last
  rw [hcost]
  exact hends.finished_iff h

theorem stepCost_le (h : Begins p s) :
    p.stepCost s ≤ (s.upcoming p.cursor).length + 1 := by
  obtain ⟨last, hlast, -, hcost, -⟩ := h.exists_last
  omega

theorem stepCost_pos (h : Begins p s) : 0 < p.stepCost s := by
  obtain ⟨last, -, -, hcost, -⟩ := h.exists_last
  omega

/-- Every step pulls, but perhaps the last. -/
theorem pullCost_bounds (h : Begins p s) :
    p.pullCost s ≤ p.stepCost s ∧ p.stepCost s ≤ p.pullCost s + 1 := by
  obtain ⟨last, -, -, hcost, -, hpulls⟩ := h.exists_last
  omega

theorem underway_of_lt (h : Begins p s) (hlt : count < p.stepCost s) :
    Underway p s count (steps count p s).1 (steps count p s).2 := by
  obtain ⟨last, -, hends, hcost, -⟩ := h.exists_last
  exact hends.underway_of_le h (by omega)

/-- Every step gives a result, and finds the end from the last step of the run on. -/
theorem result_step (h : Begins p s) (count : Nat) :
    ∃ result, ((steps count p s).1.step (steps count p s).2).1 = .ok result ∧
      (result = .finished ↔ p.stepCost s ≤ count + 1) := by
  rw [← h.finished_steps_iff, steps_succ]
  cases hover : (steps count p s).1.isOver with
  | true =>
    rw [step_of_isOver hover]
    exact ⟨_, rfl, iff_of_true rfl (finished_stop _)⟩
  | false =>
    have hfinished := finished_of_not_isOver hover
    have hlt : count < p.stepCost s := by
      refine Nat.lt_of_not_le fun hle => ?_
      rw [h.finished_steps_iff.mpr hle] at hfinished
      cases hfinished
    have hunderway := h.underway_of_lt hlt
    have hread : (steps count p s).2.read (steps count p s).1.cursor
      (steps count p s).1.cached =
        (steps count p s).2.pull p.cursor := by
      rw [hunderway.fresh, hunderway.cursor]
      rfl
    obtain ⟨⟨progress, hpull⟩, -⟩ := hunderway.quiet.pull
    rw [step_of_not_isOver hover, hread, hpull]
    obtain ⟨⟨result, hresult⟩, -⟩ := take_of_isSound hunderway.sound hover progress
    exact ⟨result, hresult, (finished_take hunderway.unfinished hresult).symm⟩

theorem steps_of_le (h : Begins p s) (hle : p.stepCost s ≤ count) :
    steps count p s = p.run s := by
  obtain ⟨last, -, hends, hcost, hrun, -⟩ := h.exists_last
  rw [hrun]
  exact hends.steps_eq (by omega)

/-- A pipeline that is over before its end has one step left, and no pull. -/
theorem cost_of_isOver (h : Begins p s) (hlt : count < p.stepCost s)
    (stopped : (steps count p s).1.isOver = true) :
    p.stepCost s = count + 1 ∧ p.pullCost s = count := by
  obtain ⟨last, -, hends, hcost, -, hpulls⟩ := h.exists_last
  have hnext := (h.underway_of_lt hlt).nextStep
  rw [← steps_succ] at hnext
  have hlast : count = last := by
    refine Nat.le_antisymm (by omega) (Nat.le_of_not_lt fun hless => ?_)
    have hunfinished := (hends.underway_of_le h hless).unfinished
    generalize steps (count + 1) p s = after at hnext hunfinished
    cases hnext with
    | spent _ finished _ | ended _ finished _ _ _ =>
      rw [finished] at hunfinished
      cases hunfinished
    | went live _ =>
      rw [stopped] at live
      cases live
  subst hlast
  rw [stopped] at hpulls
  simp only [Bool.true_eq_false, false_and, and_false, or_false] at hpulls
  exact ⟨hcost, hpulls.1⟩

/-- A pipeline that is not over before its end has a pull left. -/
theorem lt_pullCost_of_live (h : Begins p s) (hlt : count < p.stepCost s)
    (live : (steps count p s).1.isOver = false) : count < p.pullCost s := by
  obtain ⟨last, -, -, hcost, -, hpulls⟩ := h.exists_last
  rcases hpulls with ⟨hpulls, hover, -⟩ | ⟨hpulls, -⟩
  · have hne : count ≠ last := by
      rintro rfl
      rw [hover] at live
      cases live
    omega
  · omega

theorem pulls_pullTimes (h : Begins p s) (hle : count ≤ p.pullCost s) :
    ((s.pullTimes p.cursor count).cursor p.cursor).pulls = count := by
  obtain ⟨last, -, hends, -, -, hpulls⟩ := h.exists_last
  rcases Nat.lt_or_ge last count with hgt | hge
  · rcases hpulls with ⟨hpulls, -⟩ | ⟨hpulls, -, hscans⟩
    · omega
    · have hcount : count = last + 1 := by omega
      rw [hcount, ← hscans]
      exact hpulls
  · have hunderway := hends.underway_of_le h hge
    rw [← hunderway.scans]
    exact hunderway.pulls

end Begins

end Pipeline

end Lockstep
