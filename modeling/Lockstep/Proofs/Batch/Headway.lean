import Lockstep.Proofs.Batch.Advance
import Lockstep.Proofs.Batch.Unison
set_option autoImplicit false

/-!
# Batches that nothing disturbs

A batch over a quiet scan whose chains have no faults never fails: every round
completes.  A round takes one of the rows to come, or else it finds the end of
every member.  So as long as members are left, an advance has taken a row for
each of its rounds.
-/

namespace Lockstep

namespace Scans

variable {id other : CursorId} {s s' : Scans}

theorem IsQuiet.graph_pull (h : s.IsQuiet id) : (s.pull id).2.graph = s.graph :=
  h.cursor.pull.2.2

theorem IsQuiet.frame (h : s.IsQuiet other) (moves : OnlyMoves id s s')
    (graph : s'.graph = s.graph) (hne : other ≠ id) : s'.IsQuiet other := by
  refine ⟨moves.isOpen h.isOpen, ?_⟩
  rw [moves.others other hne, graph]
  exact h.cursor

end Scans

namespace Operation

theorem Steady.stop {id : CursorId} {op : Operation} (h : op.Steady id)
    (cached : Bool) :
    (op.stop cached).Steady id := by
  refine ⟨(op.cursor_stop cached).trans h.cursor, ?_⟩
  unfold Operation.stop Pipeline.stop
  split <;> exact h.sound

theorem Steady.take {id : CursorId} {op : Operation} (h : op.Steady id)
    (live : op.isOver = false) (cached : Bool) (progress : Progress) :
    (op.take cached (.ok progress)).2.Steady id :=
  ⟨(op.cursor_take cached _).trans h.cursor,
    (Pipeline.take_of_isSound (p := op.pipeline.setCached cached) h.sound live progress).2⟩

theorem Steady.stepped {id : CursorId} {op : Operation} {s : Scans} (h : op.Steady id)
    (quiet : s.IsQuiet id) : (op.stepped s).Steady id := by
  cases hover : op.isOver with
  | true =>
    rw [stepped_of_isOver hover]
    exact h.stop false
  | false =>
    obtain ⟨⟨progress, hpull⟩, -⟩ := quiet.pull
    rw [stepped_of_live hover h.cursor, hpull]
    exact h.take hover false progress

theorem isFinished_stop (op : Operation) (cached : Bool) :
    (op.stop cached).isFinished = true :=
  Pipeline.finished_stop _

theorem isFinished_stepped_of_ended {id : CursorId} {op : Operation} {s : Scans}
    (h : op.Steady id) (ended : (s.pull id).1 = .ok .ended) :
    (op.stepped s).isFinished = true := by
  cases hover : op.isOver with
  | true =>
    rw [stepped_of_isOver hover]
    exact op.isFinished_stop false
  | false =>
    rw [stepped_of_live hover h.cursor, ended]
    exact congrArg (fun taken => taken.2.finished)
      (Pipeline.take_ended (p := op.pipeline.setCached false) h.sound hover)

end Operation

namespace Batch

variable {id other : CursorId} {s s' : Scans} {ops : List Operation}

/-- Operations that nothing disturbs: a quiet cursor feeds them that has not
come to its end, and none of them has faults. -/
structure Runs (id : CursorId) (s : Scans) (ops : List Operation) : Prop where
  quiet : s.IsQuiet id
  unexhausted : (s.cursor id).isExhausted = false
  steady : ∀ op ∈ ops, op.Steady id

namespace Runs

theorem frame (h : Runs other s ops) (moves : Scans.OnlyMoves id s s')
    (graph : s'.graph = s.graph) (hne : other ≠ id) : Runs other s' ops :=
  ⟨h.quiet.frame moves graph hne, (moves.others other hne).symm ▸ h.unexhausted, h.steady⟩

theorem of_subset {ops' : List Operation} (h : Runs id s ops)
    (hsub : ∀ op ∈ ops', op ∈ ops) :
    Runs id s ops' :=
  ⟨h.quiet, h.unexhausted, fun op hop => h.steady op (hsub op hop)⟩

/-- A round over a quiet scan completes.  It takes one of the rows to come, or
else every member has found its end. -/
theorem round (h : Runs id s ops) :
    ∃ members s', Batch.round ops s = (.completed, members, s') ∧
      Scans.OnlyMoves id s s' ∧
      s'.graph = s.graph ∧
      ((∀ op ∈ members, op.isFinished = true) ∨
        Runs id s' members ∧ (s'.upcoming id).length + 1 = (s.upcoming id).length) := by
  obtain ⟨members, s', hround, hmembers, hmoved⟩ :=
    round_unison h.quiet h.unexhausted h.steady
  -- a member is what the step of an operation alone has made of it, but for how
  -- it reads
  have hmember : ∀ op' ∈ members, ∃ op ∈ ops, op.stepped s = op'.fresh := by
    intro op' hop'
    exact List.mem_map.mp (hmembers ▸ List.mem_map_of_mem hop')
  refine ⟨members, s', hround, ?_⟩
  rcases hmoved with ⟨hover, rfl⟩ | ⟨-, rfl⟩
  · refine ⟨.refl id s', rfl, .inl fun op' hop' => ?_⟩
    obtain ⟨op, hop, hstepped⟩ := hmember op' hop'
    have hfinished := op.isFinished_stop false
    rw [← Operation.stepped_of_isOver (hover op hop) s', hstepped] at hfinished
    exact hfinished
  · refine ⟨s.onlyMoves_pull id, h.quiet.graph_pull, ?_⟩
    obtain ⟨⟨progress, hpull⟩, hquiet⟩ := h.quiet.pull
    have hcase := Scans.pullCase h.quiet.isOpen
    have hlatest : (s.pull id).1 = .ok .ended ∨
        ((s.pull id).2.cursor id).isExhausted = false ∧
          ((s.pull id).2.upcoming id).length + 1 = (s.upcoming id).length := by
      unfold Scans.upcoming
      generalize (s.pull id).1 = outcome at hcase hpull
      generalize (s.pull id).2.cursor id = c at hcase
      generalize (s.pull id).2.graph = g at hcase
      cases hcase with
      | again _ ended | ended _ _ _ _ _ _ _ => exact .inl rfl
      | row _ _ _ latest _ _ upcoming =>
        refine .inr ⟨?_, (congrArg List.length upcoming).symm⟩
        unfold Cursor.isExhausted
        rw [latest]
      | failed i _ _ _ _ => cases hpull
    rcases hlatest with hended | ⟨hlive, hshorter⟩
    · refine .inl fun op' hop' => ?_
      obtain ⟨op, hop, hstepped⟩ := hmember op' hop'
      have hfinished := Operation.isFinished_stepped_of_ended (h.steady op hop) hended
      rw [hstepped] at hfinished
      exact hfinished
    · refine .inr ⟨⟨hquiet, hlive, fun op' hop' => ?_⟩, hshorter⟩
      obtain ⟨op, hop, hstepped⟩ := hmember op' hop'
      have hsteady := (h.steady op hop).stepped h.quiet
      rw [hstepped] at hsteady
      exact ⟨hsteady.cursor, hsteady.sound⟩

end Runs

/-- What an advance of so many rounds has done to a batch that nothing disturbs:
it took a row for every round, unless no members are left. -/
structure Headway (id : CursorId) (rounds : Nat) (b : Batch) (s : Scans) (a : Advance) :
    Prop where
  ending : ∃ completedAny, a.ending = .ran completedAny
  retryAt : a.batch.retryAt = b.retryAt
  moves : Scans.OnlyMoves id s a.scans
  graph : a.scans.graph = s.graph
  onward : a.batch.members = [] ∨
    Runs id a.scans a.batch.members ∧
      (a.scans.upcoming id).length + rounds ≤ (s.upcoming id).length

/-- An advance behind a round that has taken a row. -/
theorem Headway.after {rounds : Nat} {b b' : Batch} {a : Advance}
    (h : Headway id rounds b' s' a) (retryAt : b'.retryAt = b.retryAt)
    (moves : Scans.OnlyMoves id s s') (graph : s'.graph = s.graph)
    (shorter : (s'.upcoming id).length + 1 = (s.upcoming id).length)
    (completedAny : Bool) (before : List Delivery) :
    Headway id (rounds + 1) b s (a.after completedAny before) where
  ending := by
    obtain ⟨more, hran⟩ := h.ending
    exact ⟨completedAny || more, congrArg (AdvanceEnd.after completedAny) hran⟩
  retryAt := h.retryAt.trans retryAt
  moves := moves.trans h.moves
  graph := h.graph.trans graph
  onward := h.onward.imp_right fun ⟨hruns, hlength⟩ =>
    ⟨hruns, by dsimp only [Advance.after]; omega⟩

/-- An advance of a batch that nothing disturbs makes headway. -/
theorem headway_advance {b : Batch} (h : Runs id s b.members) (maxRetries : UInt32)
    (rounds : Nat) :
    Headway id rounds b s (b.advance none maxRetries rounds s) := by
  induction rounds generalizing b s with
  | zero => exact ⟨⟨_, rfl⟩, rfl, .refl id s, rfl, .inr ⟨h, Nat.le_refl _⟩⟩
  | succ rounds ih =>
    by_cases hempty : b.members = []
    · rw [advance_of_isEmpty hempty]
      exact ⟨⟨_, rfl⟩, rfl, .refl id s, rfl, .inl hempty⟩
    · have hsome : b.members.isEmpty = false := by simpa using hempty
      obtain ⟨members, s', hround, hmoves, hgraph, honward⟩ := h.round
      rw [advance, hsome, hround]
      simp only [Bool.false_eq_true, if_false]
      -- nobody crashes on taking what has found its end
      have hdeliver : deliver none (completions (members.filter Operation.isFinished)) =
          (completions (members.filter Operation.isFinished), none) := rfl
      rw [hdeliver]
      rcases honward with hfinished | ⟨hruns, hshorter⟩
      · have hleft : (members.filter fun op => !op.isFinished) = [] :=
          List.filter_eq_nil_iff.mpr fun op hop => by simp [hfinished op hop]
        dsimp only
        rw [hleft, advance_of_isEmpty rfl]
        exact ⟨⟨_, rfl⟩, rfl, hmoves, hgraph, .inl rfl⟩
      · have hleft : Runs id s' (members.filter fun op => !op.isFinished) :=
          hruns.of_subset fun op hop => (List.mem_filter.mp hop).1
        have hrest := ih (b := { b with
          members := members.filter fun op => !op.isFinished
          abortedRounds := 0
          rounds := b.rounds + 1 }) hleft
        exact hrest.after (b := b) rfl hmoves hgraph hshorter _ _

/-- An advance that makes headway needs no guard. -/
theorem guardedAdvance_of_runs {b : Batch} (h : Runs id s b.members) (sch : Scheduler) :
    sch.guardedAdvance none b s = b.advance none sch.maxRetries sch.stride s := by
  obtain ⟨_, hending⟩ := (headway_advance h sch.maxRetries sch.stride).ending
  unfold Scheduler.guardedAdvance
  dsimp only
  rw [hending]

end Batch

end Lockstep
