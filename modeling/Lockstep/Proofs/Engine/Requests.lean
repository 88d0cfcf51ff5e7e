import Lockstep.Proofs.Engine.Call
set_option autoImplicit false

/-!
# Everything that is asked of an engine

Apart from the calls of one who drives the engine batch by batch there are those
that use its workers: they hand a batch to the pool, advance a batch by its
index, let workers advance batches on their own, or change how many there are.
All of them come down to the same moves.
-/

namespace Lockstep

namespace Engine

/-- Anything that is asked of an engine, or happens to it between two requests. -/
inductive Request where
  | call (call : Call)
  | advanceIndex (index : Nat)
  | dispatchOne
  | dispatchUntilDrained
  | propagateUntilDrained
  | startPropagation
  | stopPropagation
  | setNumWorkers (workers : Nat)

/-- The engine after a request, whatever the answer is. -/
def request (e : Engine) : Request → Engine
  | .call call => (e.answer call).2
  | .advanceIndex index => (e.advanceIndex index).2
  | .dispatchOne => e.dispatchOne.2
  | .dispatchUntilDrained => e.dispatchUntilDrained.2
  | .propagateUntilDrained => e.propagateUntilDrained.2
  | .startPropagation => e.startPropagation.2
  | .stopPropagation => e.stopPropagation.2
  | .setNumWorkers workers => (e.setNumWorkers workers).2

/-- The engine after requests, in their order. -/
def requestAll (e : Engine) (requests : List Request) : Engine :=
  requests.foldl request e

theorem move_advanceIndex (e : Engine) (index : Nat) : Move e (e.advanceIndex index).2 := by
  have hmove : Move e
      (e.settle
        (e.scheduler.advanceIndex e.receiver e.now index e.registry e.scans e.metrics)) :=
    move_settle (Scheduler.turnCase_advanceIndex index)
  unfold advanceIndex
  dsimp only
  split <;> exact hmove

/-- A task of the pool makes the move of its advance. -/
theorem moves_dispatchOne (e : Engine) : Moves e e.dispatchOne.2 := by
  unfold dispatchOne
  split
  · exact .refl
  · rename_i pool _
    split
    · exact .refl
    · split
      · exact .refl
      · rename_i index _
        have hhanded : Move e
            { e with
              pool := some pool.enqueue.runOne
              metrics := e.metrics.countDispatched } :=
          .idle (receives_nil ..)
        have hadvance := move_advanceIndex
          { e with
            pool := some pool.enqueue.runOne
            metrics := e.metrics.countDispatched } index
        dsimp only at hadvance ⊢
        generalize advanceIndex _ _ = result at hadvance ⊢
        obtain ⟨result, e'⟩ := result
        have hboth : Moves e e' := .head hhanded (.single hadvance)
        cases result with
        | error crash => exact hboth.tail (.idle (receives_nil ..))
        | ok report => exact hboth

theorem moves_dispatchTurn (e : Engine) : Moves e e.dispatchTurn.2 := by
  have hform := e.move_formQuietly
  unfold dispatchTurn
  generalize e.formQuietly = formed at hform ⊢
  obtain ⟨crash, e'⟩ := formed
  cases crash with
  | some crash => exact .single hform
  | none =>
    have hdispatch := e'.moves_dispatchOne
    dsimp only
    generalize e'.dispatchOne = result at hdispatch ⊢
    obtain ⟨result, e''⟩ := result
    have hboth : Moves e e'' := .head hform hdispatch
    cases result with
    | error error => exact hboth
    | ok handed =>
      cases handed with
      | true => exact hboth
      | false => exact hboth.trans e''.moves_awaitRetry

theorem moves_propagateTurn (e : Engine) : Moves e e.propagateTurn.2 := by
  have hform := e.move_formQuietly
  unfold propagateTurn
  generalize e.formQuietly = formed at hform ⊢
  obtain ⟨crash, e'⟩ := formed
  cases crash with
  | some crash => exact .single hform
  | none =>
    have hadvance := e'.move_advanceNext
    dsimp only
    generalize e'.advanceNext = result at hadvance ⊢
    obtain ⟨result, e''⟩ := result
    have hboth : Moves e e'' := .head hform (.single hadvance)
    cases result with
    | error crash => exact hboth.tail (.idle (receives_nil ..))
    | ok report =>
      cases report with
      | some report => exact hboth
      | none => exact hboth.trans e''.moves_awaitRetry

theorem moves_startPropagation (e : Engine) : Moves e e.startPropagation.2 := by
  unfold startPropagation
  split
  · exact .refl
  · exact .single (.idle (receives_nil ..))

theorem moves_stopPropagation (e : Engine) : Moves e e.stopPropagation.2 := by
  unfold stopPropagation
  split
  · exact .single (.idle (receives_nil ..))
  · exact .refl

theorem moves_propagateUntilDrained (e : Engine) :
    Moves e e.propagateUntilDrained.2 := by
  have hstart := e.moves_startPropagation
  rw [propagateUntilDrained_eq]
  generalize e.startPropagation = started at hstart ⊢
  obtain ⟨result, e₁⟩ := started
  cases result with
  | error error => exact hstart
  | ok _ =>
    have hdrain := moves_drainBy moves_propagateTurn e₁.drainBound e₁
    dsimp only
    generalize drainBy _ _ _ = drained at hdrain ⊢
    obtain ⟨result, e₂⟩ := drained
    have hboth : Moves e e₂ := hstart.trans hdrain
    cases result with
    | error stop => exact hboth
    | ok _ => exact hboth.trans e₂.moves_stopPropagation

theorem moves_dispatchUntilDrained (e : Engine) : Moves e e.dispatchUntilDrained.2 := by
  rw [dispatchUntilDrained_eq]
  split
  · exact .refl
  · exact moves_drainBy moves_dispatchTurn _ e

theorem move_setNumWorkers (e : Engine) (workers : Nat) :
    Move e (e.setNumWorkers workers).2 := by
  unfold setNumWorkers
  split
  · exact .idle (.refl e)
  · split
    · exact .idle (.refl e)
    · split
      · exact .idle (.refl e)
      · split
        · exact .idle (.refl e)
        · exact .idle ⟨rfl, rfl, rfl, rfl, rfl, rfl, rfl, fun _ ho => .inl ho⟩

/-- What one request does. -/
inductive RequestCase (e : Engine) : Request → Engine → Prop
  /-- a query was accepted -/
  | accepted {request : Request} {query : String} {plan : Plan} {e' : Engine}
      (rest : Receives [] { e with
        queue := (e.queue.enqueue query (plan.openScan e.scans).1).2
        scans := (plan.openScan e.scans).2 } e') : RequestCase e request e'
  /-- operations that had been accepted have moved on -/
  | moved {request : Request} {e' : Engine} (moves : Moves e e') :
      RequestCase e request e'
  /-- an operation was lost to a crash -/
  | lost {request : Request} {e' : Engine} (loss : Loss e e') : RequestCase e request e'
  /-- the ledger's clock was read again -/
  | ticked (time : Int) : RequestCase e (.call (.tick time)) { e with clock := time }
  /-- the graph was disturbed -/
  | disturbed {request : Request} (d : Disturbance) :
      RequestCase e request { e with scans := e.scans.disturb d }

/-- Every request is one of these. -/
theorem requestCase (e : Engine) (request : Request) :
    e.RequestCase request (e.request request) := by
  cases request with
  | call call =>
    have hcase := e.callCase call
    unfold Engine.request
    dsimp only
    generalize (e.answer call).1 = answer at hcase
    generalize (e.answer call).2 = e' at hcase ⊢
    cases hcase with
    | accepted _ rest => exact .accepted rest
    | moved moves _ _ => exact .moved moves
    | lost loss _ => exact .lost loss
    | ticked time => exact .ticked time
    | disturbed d => exact .disturbed d
  | advanceIndex index => exact .moved (.single (e.move_advanceIndex index))
  | dispatchOne => exact .moved e.moves_dispatchOne
  | dispatchUntilDrained => exact .moved e.moves_dispatchUntilDrained
  | propagateUntilDrained => exact .moved e.moves_propagateUntilDrained
  | startPropagation => exact .moved e.moves_startPropagation
  | stopPropagation => exact .moved e.moves_stopPropagation
  | setNumWorkers workers => exact .moved (.single (e.move_setNumWorkers workers))

end Engine

end Lockstep
