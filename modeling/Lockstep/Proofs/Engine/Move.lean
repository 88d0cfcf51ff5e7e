import Lockstep.Engine.Lifecycle
import Lockstep.Proofs.Batch.Advance
import Lockstep.Proofs.Engine.Receipt
import Lockstep.Proofs.Scheduler.Turn
import Mathlib.Logic.Relation
set_option autoImplicit false

/-!
# What calls do to an engine

Whatever is asked of an engine that has accepted its queries comes down to a few
moves: a batch is formed or refused, a waiting operation is stepped on its own,
a batch is advanced, or all that remains is abandoned.  A crash while an
operation is stepped on its own is a loss, and no move.
-/

namespace Lockstep.Engine

/-- The operations that the next batch takes, and the queue without them. -/
def front (e : Engine) : List Operation × Queue := e.queue.drainBatch e.config.batchSize

theorem front_append (e : Engine) :
    e.front.1 ++ e.front.2.operations = e.queue.operations :=
  e.queue.drainBatch_append _

theorem mem_front (e : Engine) {op : Operation}
    (h : op ∈ e.front.1 ∨ op ∈ e.front.2.operations) :
    op ∈ e.queue.operations := e.front_append ▸ List.mem_append.mpr h

theorem sublist_front (e : Engine) : e.front.2.operations.Sublist e.queue.operations :=
  e.front_append ▸ List.sublist_append_right _ _

/-- One thing that happens to the operations of an engine. -/
inductive Move (e : Engine) : Engine → Prop
  /-- nothing -/
  | idle {e' : Engine} (rest : Receives [] e e') : Move e e'
  /-- a batch was formed of waiting operations -/
  | formed {e' : Engine} {name : String} {b : Batch} {index : Nat} {r : Registry}
      (form : Batch.form name e.front.1 e.scans = .ok b)
      (insert : e.registry.insert? b = some (index, r))
      (rest : Receives [] { e with queue := e.front.2, registry := r } e') : Move e e'
  /-- waiting operations failed since they could not be grouped -/
  | refused {e' : Engine} {name : String} {f : Failure} {operations : List Operation}
      {taken : List Delivery}
      (form : Batch.form name e.front.1 e.scans = .error ⟨f, operations⟩)
      (some : taken <+: operations.map fun op => ⟨op, .failed f.display⟩)
      (all : e.receiver = none → taken = operations.map fun op =>
        ⟨op, .failed f.display⟩)
      (rest : Receives taken { e with queue := e.front.2 } e') : Move e e'
  /-- a waiting operation was stepped and goes on waiting -/
  | stepped {e' : Engine} {index : Nat} {op op' : Operation} {queue : Queue} {s : Scans}
      {result : Except Interruption StepResult}
      (took : e.queue.takeAt? index = some (op, queue))
      (step : op.step false e.scans = (result, op', s))
      (going : ∀ crash, result ≠ .error (.crashed crash))
        (unfinished : result ≠ .ok .finished)
      (rest : Receives [] { e with queue := queue.reinsert index op', scans := s } e') :
        Move e e'
  /-- a waiting operation was stepped to its end -/
  | completed {e' : Engine} {index : Nat} {op op' : Operation} {queue : Queue}
      {s : Scans} (took : e.queue.takeAt? index = some (op, queue))
      (step : op.step false e.scans = (.ok .finished, op', s))
      (rest : Receives [⟨op', .completed⟩] { e with queue := queue, scans := s } e') :
        Move e e'
  /-- a waiting operation was stepped and failed -/
  | failed {e' : Engine} {index : Nat} {op op' : Operation} {queue : Queue} {s : Scans}
      {f : Failure} (took : e.queue.takeAt? index = some (op, queue))
      (step : op.step false e.scans = (.error (.failed f), op', s))
      (rest : Receives [⟨op', .failed f.display⟩] { e with queue := queue, scans := s }
        e') : Move e e'
  /-- a batch was advanced -/
  | advanced {e' : Engine} {index : Nat} {b : Batch} {r : Registry}
      (live : e.registry.get? index = some b)
      (registry : e.registry.Sound → e.registry.Resettled index
        (e.scheduler.guardedAdvance e.receiver b e.scans).batch r)
      (emptied : e.receiver = none → e.registry.Sound →
        (e.scheduler.guardedAdvance e.receiver b e.scans).batch.members = [] →
          r.batches = e.registry.before index ++ e.registry.behind index)
      (rest : Receives (e.scheduler.guardedAdvance e.receiver b e.scans).deliveries
        { e with
          registry := r
          scans := (e.scheduler.guardedAdvance e.receiver b e.scans).scans } e') :
      Move e e'
  /-- all waiting operations were abandoned -/
  | abandonedQueue {e' : Engine} {taken : List Delivery}
      (some :
        taken <+: e.queue.operations.map fun op => ⟨op, .failed abandonFailure.display⟩)
      (all : e.receiver = none →
        taken = e.queue.operations.map fun op => ⟨op, .failed abandonFailure.display⟩)
      (rest : Receives taken { e with queue := e.queue.drainAll.2 } e') : Move e e'
  /-- all batches were abandoned, but those that are locked -/
  | abandonedBatches {e' : Engine} {taken : List Delivery}
      (some : ∀ d ∈ taken, ∃ b ∈ e.registry.batches,
        d ∈ Batch.failures abandonFailure b.members)
      (all : e.receiver = none → (∀ b ∈ e.registry.batches, b.locked = false) →
        taken = e.registry.batches.flatMap fun b =>
          Batch.failures abandonFailure b.members)
      (rest : Receives taken { e with registry := e.registry.drain.2 } e') : Move e e'

/-- What a crash of an operation that was stepped on its own does: the
operation is gone. -/
inductive Loss (e : Engine) : Engine → Prop
  | lost {e' : Engine} {index : Nat} {op op' : Operation} {queue : Queue} {s : Scans}
      {crash : Crash}
      (took : e.queue.takeAt? index = some (op, queue))
      (step : op.step false e.scans = (.error (.crashed crash), op', s))
      (rest : Receives [] { e with queue := queue, scans := s } e') : Loss e e'

/-- Any number of moves. -/
abbrev Moves : Engine → Engine → Prop := Relation.ReflTransGen Move

/-! ## Forming batches -/

/-- What forming a batch can do, and its result. -/
inductive Forming (e : Engine) : Except Stop (Option Nat) → Engine → Prop
  /-- nothing, since there is no room -/
  | full {e' : Engine} (full : e.registry.isFull = true) (rest : Receives [] e e') :
      Forming e (.error (.error (.registryFull e.registry.capacity))) e'
  /-- nothing, since no operation waits -/
  | idle (empty : e.front.1 = []) : Forming e (.ok none) e
  /-- a batch was formed of waiting operations -/
  | formed {e' : Engine} {name : String} {b : Batch} {index : Nat} {r : Registry}
      (form : Batch.form name e.front.1 e.scans = .ok b)
      (insert : e.registry.insert? b = some (index, r))
      (rest : Receives [] { e with queue := e.front.2, registry := r } e') :
      Forming e (.ok (some index)) e'
  /-- waiting operations failed since they could not be grouped -/
  | refused {e' : Engine} {result : Except Stop (Option Nat)} {name : String}
      {f : Failure}
      {operations : List Operation} {taken : List Delivery} (nonempty : e.front.1 ≠ [])
      (form : Batch.form name e.front.1 e.scans = .error ⟨f, operations⟩)
      (some : taken <+: operations.map fun op => ⟨op, .failed f.display⟩)
      (all : e.receiver = none → result = .error (.error (.query f)) ∧
        taken = operations.map fun op => ⟨op, .failed f.display⟩)
      (rest : Receives taken { e with queue := e.front.2 } e') : Forming e result e'

theorem forming_formBatch (e : Engine) : e.Forming e.formBatch.1 e.formBatch.2 := by
  unfold formBatch
  split
  · rename_i hfull
    exact .full hfull (receives_nil ..)
  · rename_i hfull
    have hfront : e.queue.drainBatch e.config.batchSize = (e.front.1, e.front.2) := rfl
    rw [hfront]
    dsimp only
    split
    · rename_i hempty
      exact .idle (List.isEmpty_iff.mp hempty)
    · rename_i hsome
      split
      · rename_i b hform
        have hinsert : e.registry.insert? b ≠ none := fun hnone =>
          hfull (Registry.insert?_eq_none_iff.mp hnone)
        unfold register
        dsimp only
        split
        · rename_i index r hinserted
          exact .formed hform hinserted (receives_nil ..)
        · rename_i hnone
          exact absurd hnone hinsert
      · rename_i f operations hform
        obtain ⟨taken, hprefix, hreceives, hall⟩ := receives_completeAll
          ({ e with queue := e.front.2 }.reject operations.length f.message)
          (operations.map fun op => ⟨op, .failed f.display⟩)
        have hrest : Receives taken { e with queue := e.front.2 } _ :=
          hreceives.after (receives_nil ..)
        generalize completeAll _ _ = completed at hrest hall
        obtain ⟨e', crash⟩ := completed
        have hnot : e.front.1 ≠ [] := fun hempty => hsome (List.isEmpty_iff.mpr hempty)
        cases crash with
        | some crash =>
          exact .refused hnot hform hprefix
            (fun hready => nomatch (hall hready).1) hrest
        | none =>
          exact .refused hnot hform hprefix (fun hready => ⟨rfl, (hall hready).2⟩) hrest

theorem move_formBatch (e : Engine) : Move e e.formBatch.2 := by
  have hforming := e.forming_formBatch
  generalize e.formBatch.1 = result at hforming
  generalize e.formBatch.2 = e' at hforming
  cases hforming with
  | full full rest => exact .idle rest
  | idle empty => exact .idle (.refl e)
  | formed form insert rest => exact .formed form insert rest
  | refused nonempty form some all rest =>
    exact .refused form some (fun hready => (all hready).2) rest

theorem moves_formBatches (e : Engine) (fuel formed : Nat) :
    Moves e (e.formBatches fuel formed).2 := by
  induction fuel generalizing e formed with
  | zero => exact .refl
  | succ fuel ih =>
    have hmove := e.move_formBatch
    unfold formBatches
    generalize e.formBatch = result at hmove ⊢
    obtain ⟨result, e'⟩ := result
    cases result with
    | error stop => exact .single hmove
    | ok index =>
      cases index with
      | none => exact .single hmove
      | some index => exact .head hmove (ih e' _)

/-! ## Stepping one operation -/

/-- What becomes of an operation that was taken from an index and stepped on its
own, by what the step gave: the answer and the engine afterwards. -/
inductive Stepping (e : Engine) (index : Nat) (op : Operation) (queue : Queue) (s : Scans) :
    Except Interruption StepResult → Except Stop Bool → Engine → Prop
  /-- it goes on waiting -/
  | waits {result : Except Interruption StepResult} {answer : Except Stop Bool}
      (going : ∀ crash, result ≠ .error (.crashed crash))
      (unfinished : result ≠ .ok .finished) :
      Stepping e index op queue s result answer
        { e with queue := queue.reinsert index op, scans := s }
  /-- it has found its end -/
  | completed {answer : Except Stop Bool} {e' : Engine}
      (rest : Receives [⟨op, .completed⟩] { e with queue := queue, scans := s } e') :
      Stepping e index op queue s (.ok .finished) answer e'
  /-- it has failed -/
  | failed {f : Failure} {answer : Except Stop Bool} {e' : Engine}
      (rest : Receives [⟨op, .failed f.display⟩]
        { e with queue := queue, scans := s } e') :
      Stepping e index op queue s (.error (.failed f)) answer e'
  /-- it is gone -/
  | lost (crash : Crash) : Stepping e index op queue s (.error (.crashed crash))
      (.error (.crashed crash)) { e with queue := queue, scans := s }

theorem stepping_propagateAt {e : Engine} {index : Nat} {op op' : Operation}
    {queue : Queue} {s : Scans} {result : Except Interruption StepResult}
    (took : e.queue.takeAt? index = some (op, queue))
    (step : op.step false e.scans = (result, op', s)) :
    e.Stepping index op' queue s result (e.propagateAt index).1
      (e.propagateAt index).2 := by
  have hcomplete := fun status =>
    (receives_complete { e with queue := queue, scans := s } ⟨op', status⟩).1
  unfold propagateAt
  simp only [took, step]
  cases result with
  | ok result =>
    cases result with
    | finished =>
      have hreceives := hcomplete .completed
      dsimp only
      generalize complete _ _ = completed at hreceives ⊢
      obtain ⟨e', crash⟩ := completed
      cases crash <;> exact .completed hreceives
    | produced | pending => exact .waits (by simp) (by simp)
  | error i =>
    cases i with
    | crashed crash => exact .lost crash
    | failed f =>
      dsimp only
      split
      · exact .waits (by simp) (by simp)
      · have hreceives := hcomplete (.failed f.display)
        generalize complete _ _ = completed at hreceives ⊢
        obtain ⟨e', crash⟩ := completed
        cases crash <;> exact .failed hreceives

theorem move_propagateAt (e : Engine) (index : Nat) :
    Move e (e.propagateAt index).2 ∨
      Loss e (e.propagateAt index).2 ∧ ∃ crash,
        (e.propagateAt index).1 = .error (.crashed crash) := by
  cases htook : e.queue.takeAt? index with
  | none =>
    have hnobody : e.propagateAt index = (.ok false, e) := by
      unfold propagateAt
      rw [htook]
    rw [hnobody]
    exact .inl (.idle (.refl e))
  | some took =>
    obtain ⟨op, queue⟩ := took
    generalize hstep : op.step false e.scans = stepped
    obtain ⟨result, op', s⟩ := stepped
    have hstepping := stepping_propagateAt htook hstep
    generalize (e.propagateAt index).1 = answer at hstepping
    generalize (e.propagateAt index).2 = e' at hstepping
    cases hstepping with
    | waits going unfinished =>
      exact .inl (.stepped htook hstep going unfinished (.refl _))
    | completed rest => exact .inl (.completed htook hstep rest)
    | failed rest => exact .inl (.failed htook hstep rest)
    | lost crash => exact .inr ⟨.lost htook hstep (.refl _), crash, rfl⟩

/-! ## Advancing -/

/-- Settling a turn receives what it has delivered. -/
theorem receives_settle (e : Engine) (turn : Turn) :
    Receives turn.deliveries { e with registry := turn.registry, scans := turn.scans }
      (e.settle turn) := by
  have hall := receives_receiveAll
    { e with registry := turn.registry, scans := turn.scans, metrics := turn.metrics }
    turn.deliveries
  exact (hall.after (receives_nil ..)).before (receives_nil ..)

theorem move_settle {e : Engine} {turn : Turn}
    (h : Scheduler.TurnCase e.scheduler e.receiver e.registry e.scans turn) :
    Move e (e.settle turn) := by
  have hreceives := e.receives_settle turn
  cases h with
  | idle report crash registry scans deliveries =>
    rw [registry, scans, deliveries] at hreceives
    exact .idle hreceives
  | advanced index live report registry emptied scans deliveries =>
    rw [scans, deliveries] at hreceives
    exact .advanced live registry emptied hreceives

theorem move_advanceNext (e : Engine) : Move e e.advanceNext.2 := by
  have hmove :
      Move e
        (e.settle
          (e.scheduler.advanceNext e.receiver e.now e.registry e.scans e.metrics)) :=
    move_settle Scheduler.turnCase_advanceNext
  unfold advanceNext
  dsimp only
  split <;> exact hmove

theorem moves_awaitRetry (e : Engine) : Moves e e.awaitRetry := by
  unfold awaitRetry
  split
  · exact .single (.idle (receives_nil ..))
  · exact .refl

theorem move_formQuietly (e : Engine) : Move e e.formQuietly.2 := by
  have hmove := e.move_formBatch
  unfold formQuietly
  split <;> (rename_i hform; rw [hform] at hmove; exact hmove)

theorem moves_advanceTurn (e : Engine) : Moves e e.advanceTurn.2 := by
  have hform := e.move_formQuietly
  unfold advanceTurn
  generalize e.formQuietly = formed at hform ⊢
  obtain ⟨crash, e'⟩ := formed
  cases crash with
  | some crash => exact .single hform
  | none =>
    have hadvance := e'.move_advanceNext
    dsimp only
    generalize e'.advanceNext = result at hadvance ⊢
    obtain ⟨result, e''⟩ := result
    have hboth : Moves e e'' := .head hform (.single hadvance)
    cases result with
    | error crash => exact hboth
    | ok report =>
      cases report with
      | some report => exact hboth
      | none => exact hboth.trans e''.moves_awaitRetry

/-- A drain makes the moves of its turns. -/
theorem moves_drainBy {turn : Engine → Except Stop Unit × Engine}
    (h : ∀ e, Moves e (turn e).2) (fuel : Nat) (e : Engine) :
    Moves e (drainBy turn fuel e).2 := by
  induction fuel generalizing e with
  | zero => exact .refl
  | succ fuel ih =>
    have hturn := h e
    rw [drainBy_succ]
    split
    · exact .refl
    · generalize turn e = result at hturn ⊢
      obtain ⟨result, e'⟩ := result
      cases result with
      | ok _ => exact hturn.trans (ih e')
      | error stop => exact hturn

theorem moves_runUntilDrained (e : Engine) : Moves e e.runUntilDrained.2 := by
  unfold runUntilDrained
  split
  · exact .refl
  · exact moves_drainBy moves_advanceTurn _ e

/-! ## Shutting down -/

/-- Deliveries that abandon batches: they are members of these, and all of them
if nothing stands in the way. -/
structure Abandons (e : Engine) (batches : List Batch) (taken : List Delivery) :
    Prop where
  some : ∀ d ∈ taken, ∃ b ∈ batches, d ∈ Batch.failures abandonFailure b.members
  all : e.receiver = none → (∀ b ∈ batches, b.locked = false) →
    taken = batches.flatMap fun b => Batch.failures abandonFailure b.members

theorem Abandons.skip {e : Engine} {b : Batch} {others : List Batch}
    {taken : List Delivery} (h : Abandons e others taken) (locked : b.locked = true) :
    Abandons e (b :: others) taken := by
  refine ⟨?_, ?_⟩
  · intro d hd
    obtain ⟨b', hb', hd'⟩ := h.some d hd
    exact ⟨b', List.mem_cons_of_mem _ hb', hd'⟩
  · intro _ hunlocked
    rw [hunlocked b List.mem_cons_self] at locked
    cases locked

theorem Abandons.cons {e : Engine} {b : Batch} {others : List Batch}
    {first taken : List Delivery} (h : Abandons e others taken)
    (some : ∀ d ∈ first, d ∈ Batch.failures abandonFailure b.members)
    (all : e.receiver = none → first = Batch.failures abandonFailure b.members) :
    Abandons e (b :: others) (first ++ taken) := by
  refine ⟨List.forall_mem_append.mpr ⟨?_, ?_⟩, ?_⟩
  · intro d hd
    exact ⟨b, List.mem_cons_self, some d hd⟩
  · intro d hd
    obtain ⟨b', hb', hd'⟩ := h.some d hd
    exact ⟨b', List.mem_cons_of_mem _ hb', hd'⟩
  · intro hready hunlocked
    rw [all hready, h.all hready (List.forall_mem_cons.mp hunlocked).2]
    rfl

/-- Whatever batches are abandoned deliver is received. -/
theorem receives_abandonBatches (e : Engine) (batches : List Batch) (count : Nat) :
    ∃ taken, Receives taken e (e.abandonBatches batches count).2 ∧
      Abandons e batches taken := by
  induction batches generalizing e count with
  | nil => exact ⟨[], .refl e, List.forall_mem_nil _, fun _ _ => rfl⟩
  | cons b others ih =>
    unfold abandonBatches
    split
    · rename_i hlocked
      obtain ⟨taken, hreceives, habandons⟩ := ih e count
      exact ⟨taken, hreceives, habandons.skip hlocked⟩
    · have hsome : ∀ d ∈ (b.failAll e.receiver abandonFailure e.scans).deliveries,
          d ∈ Batch.failures abandonFailure b.members :=
            fun d hd => Batch.mem_of_mem_failAll hd
      have hnone : e.receiver = none → b.failAll e.receiver abandonFailure e.scans =
          ⟨.failed b.members.length abandonFailure, { b with members := [] }, e.scans,
            Batch.failures abandonFailure b.members⟩ := by
        intro hready
        rw [hready]
        rfl
      dsimp only
      generalize b.failAll e.receiver abandonFailure e.scans = a at hsome hnone
      have hdeliveries := receives_receiveAll e a.deliveries
      have hall : e.receiver = none →
          a.deliveries = Batch.failures abandonFailure b.members := by
        intro hready
        rw [hnone hready]
      have hrest : ∀ count, ∃ taken,
          Receives taken e ((e.receiveAll a.deliveries).abandonBatches others count).2 ∧
            Abandons e (b :: others) taken := by
        intro count
        obtain ⟨taken, hreceives, hsome', hall'⟩ := ih (e.receiveAll a.deliveries) count
        rw [hdeliveries.receiver] at hall'
        exact ⟨_, hdeliveries.trans hreceives, Abandons.cons ⟨hsome', hall'⟩ hsome hall⟩
      cases hending : a.ending with
      | crashed crash =>
        refine ⟨a.deliveries, hdeliveries, ?_, ?_⟩
        · intro d hd
          exact ⟨b, List.mem_cons_self, hsome d hd⟩
        · intro hready _
          rw [hnone hready] at hending
          cases hending
      | failed members f => exact hrest (count + members)
      | ran | aborted f => exact hrest count

theorem moves_abandonRemaining (e : Engine) : Moves e e.abandonRemaining.2 := by
  obtain ⟨taken, hprefix, hreceives, hall⟩ := receives_completeAll
    { e with queue := e.queue.drainAll.2 }
    (e.queue.operations.map fun op => ⟨op, .failed abandonFailure.display⟩)
  have hqueue := Move.abandonedQueue hprefix (fun hnone => (hall hnone).2) hreceives
  have hdrain : e.queue.drainAll = (e.queue.operations, e.queue.drainAll.2) := rfl
  unfold abandonRemaining
  rw [hdrain]
  dsimp only
  generalize completeAll _ _ = completed at hqueue ⊢
  obtain ⟨e', crash⟩ := completed
  cases crash with
  | some crash => exact .single hqueue
  | none =>
    obtain ⟨taken, hreceives, habandons⟩ := receives_abandonBatches
      { e' with registry := e'.registry.drain.2 } e'.registry.drain.1
        e.queue.operations.length
    have hbatches := Move.abandonedBatches habandons.some habandons.all hreceives
    dsimp only at hqueue hbatches ⊢
    generalize abandonBatches _ _ _ = abandoned at hbatches ⊢
    obtain ⟨result, e''⟩ := abandoned
    have hboth : Moves e e'' := .head hqueue (.single hbatches)
    cases result with
    | error crash => exact hboth
    | ok count =>
      dsimp only
      split
      · exact hboth.tail (.idle (receives_nil ..))
      · exact hboth

theorem moves_shutdown (e : Engine) : Moves e e.shutdown.2 := by
  have hstop : Moves e e.stopPropagation.2 := by
    unfold stopPropagation
    split
    · exact .single (.idle (receives_nil ..))
    · exact .refl
  unfold shutdown
  generalize e.stopPropagation.2 = e' at hstop ⊢
  dsimp only
  split
  · exact hstop
  · have hpool : Moves e { e' with pool := none } :=
      hstop.tail (.idle (receives_nil ..))
    have hall := hpool.trans (moves_abandonRemaining _)
    generalize abandonRemaining _ = result at hall ⊢
    obtain ⟨result, e''⟩ := result
    cases result with
    | error crash => exact hall
    | ok count => exact hall.tail (.idle (receives_nil ..))

end Lockstep.Engine
