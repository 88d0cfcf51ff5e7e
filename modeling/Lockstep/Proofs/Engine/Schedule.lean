import Lockstep.Proofs.Engine.Store
import Lockstep.Proofs.Engine.Termination
set_option autoImplicit false

/-!
# Schedules

What is asked of an engine to drive its batches, in some order, is a schedule:
batches are formed and advanced, by whom ever, and time passes.  A drain is one
of them, and so is a drain that is delayed between its turns.  So what is true
of all schedules is true of both.
-/

namespace Lockstep.Engine

/-- The requests that drive batches, those that say who does it, and those by
which time passes. -/
def Request.IsDrive : Request → Prop
  | .call .formBatch | .call .advanceNext | .advanceIndex _ | .dispatchOne => True
  | .startPropagation | .stopPropagation | .setNumWorkers _ => True
  | .call (.tick _) | .call (.wait _) => True
  | _ => False

variable {e e' : Engine} {readings : List Nat}

/-! ## What a request of a schedule does -/

/-- What touches neither an operation, nor the ledger's clock, nor an outcome. -/
structure Unmoved (e e' : Engine) : Prop where
  receives : Receives [] e e'
  outcomes : e'.outcomes = e.outcomes

theorem Unmoved.refl (e : Engine) : Unmoved e e := ⟨.refl e, rfl⟩

theorem Stocked.unmoved {capacity : Nat} (h : e.Stocked capacity)
    (unmoved : Unmoved e e') :
    e'.Stocked capacity := by
  refine ⟨unmoved.receives.receiver.trans h.ready, ?_, ?_⟩
  · rw [unmoved.receives.config]
    exact h.limit
  · rw [unmoved.outcomes, unmoved.receives.delivered]
    exact h.outcomes

/-- A request of a schedule forms a batch, or advances one, or does
nothing of the kind. -/
inductive DriveCase (e : Engine) : Request → Engine → Prop
  | formed : DriveCase e (.call .formBatch) e.formBatch.2
  | next : DriveCase e (.call .advanceNext) e.advanceNext.2
  /-- a batch was advanced by its index, perhaps by a task of the pool -/
  | index {request : Request} {e₁ e' : Engine} (before : Unmoved e e₁) (index : Nat)
      (behind : Unmoved (e₁.advanceIndex index).2 e') : DriveCase e request e'
  | unmoved {request : Request} {e' : Engine} (unmoved : Unmoved e e') :
      DriveCase e request e'
  | ticked (time : Int) : DriveCase e (.call (.tick time)) { e with clock := time }

theorem driveCase_dispatchOne (e : Engine) : DriveCase e .dispatchOne e.dispatchOne.2 := by
  unfold dispatchOne
  split
  · exact .unmoved (.refl e)
  · rename_i pool _
    split
    · exact .unmoved (.refl e)
    · split
      · exact .unmoved (.refl e)
      · rename_i index _
        have hbefore : Unmoved e
            { e with
              pool := some pool.enqueue.runOne
              metrics := e.metrics.countDispatched } :=
          ⟨receives_nil .., rfl⟩
        refine .index hbefore index ?_
        dsimp only
        generalize advanceIndex _ _ = result
        obtain ⟨result, e'⟩ := result
        cases result with
        | error crash => exact ⟨receives_nil .., rfl⟩
        | ok report => exact .refl e'

theorem driveCase (e : Engine) {request : Request} (drive : request.IsDrive) :
    DriveCase e request (e.request request) := by
  cases request with
  | advanceIndex index => exact .index (.refl e) index (.refl _)
  | dispatchOne => exact e.driveCase_dispatchOne
  | startPropagation =>
    refine .unmoved ?_
    show Unmoved e e.startPropagation.2
    unfold startPropagation
    split
    · exact .refl e
    · exact ⟨receives_nil .., rfl⟩
  | stopPropagation =>
    refine .unmoved ?_
    show Unmoved e e.stopPropagation.2
    unfold stopPropagation
    split
    · exact ⟨receives_nil .., rfl⟩
    · exact .refl e
  | setNumWorkers workers =>
    refine .unmoved ?_
    show Unmoved e (e.setNumWorkers workers).2
    unfold setNumWorkers
    repeat' split
    · exact .refl e
    · exact .refl e
    · exact .refl e
    · exact .refl e
    · exact ⟨⟨rfl, rfl, rfl, rfl, rfl, rfl, rfl, fun _ ho => .inl ho⟩, rfl⟩
  | call call =>
    cases call with
    | formBatch => exact .formed
    | advanceNext => exact .next
    | tick time => exact .ticked time
    | wait milliseconds => exact .unmoved ⟨receives_nil .., rfl⟩
    | _ => exact drive.elim
  | _ => exact drive.elim

theorem retention_request (e : Engine) (request : Request) :
    (e.request request).ledger.retention = e.ledger.retention := by
  have hcase := e.requestCase request
  generalize e.request request = e' at hcase
  cases hcase with
  | accepted rest => exact rest.retention
  | moved moves => exact (carries_of_moves moves).retention
  | lost loss =>
    cases loss with
    | lost took step rest => exact rest.retention
  | ticked time => rfl
  | disturbed d => rfl

/-! ## Schedules -/

/-- A schedule in which the ledger's clock is shown none but these times. -/
def IsSchedule (readings : List Nat) (requests : List Request) : Prop :=
  ∀ request ∈ requests, request.IsDrive ∧
    ∀ time, request = .call (.tick time) → ∃ reading ∈ readings,
      time = Int.ofNat reading

theorem IsSchedule.append {requests more : List Request}
    (h : IsSchedule readings requests) (h' : IsSchedule readings more) :
    IsSchedule readings (requests ++ more) :=
  List.forall_mem_append.mpr ⟨h, h'⟩

theorem requestAll_append (e : Engine) (requests more : List Request) :
    e.requestAll (requests ++ more) = (e.requestAll requests).requestAll more :=
  List.foldl_append

/-- An engine that is reached from another by a schedule. -/
def Scheduled (readings : List Nat) (e e' : Engine) : Prop :=
  ∃ requests, IsSchedule readings requests ∧ e' = e.requestAll requests

namespace Scheduled

theorem refl (e : Engine) : Scheduled readings e e := ⟨[], List.forall_mem_nil _, rfl⟩

theorem trans {e'' : Engine} (h : Scheduled readings e e')
    (h' : Scheduled readings e' e'') :
    Scheduled readings e e'' := by
  obtain ⟨requests, hrequests, rfl⟩ := h
  obtain ⟨more, hmore, rfl⟩ := h'
  exact ⟨requests ++ more, hrequests.append hmore,
    (e.requestAll_append requests more).symm⟩

theorem single (request : Request) (drive : request.IsDrive)
    (still : ∀ time, request ≠ .call (.tick time)) :
    Scheduled readings e (e.request request) :=
  ⟨[request], List.forall_mem_singleton.mpr
    ⟨drive, fun time h => absurd h (still time)⟩, rfl⟩

theorem elapse {reading : Nat} (shown : reading ∈ readings) :
    Scheduled readings e (e.elapse reading) := by
  refine ⟨[.call (.tick reading), .call (.wait (reading - e.now))], ?_, ?_⟩
  · refine List.forall_mem_cons.mpr
      ⟨⟨trivial, ?_⟩, List.forall_mem_singleton.mpr ⟨trivial, ?_⟩⟩
    · intro time h
      cases h
      exact ⟨reading, shown, rfl⟩
    · intro time h
      cases h
  · have hnow : max e.now reading = e.now + (reading - e.now) := by omega
    unfold Engine.elapse
    rw [hnow]
    rfl

/-! ## Turns -/

theorem formQuietly (readings : List Nat) (e : Engine) :
    Scheduled readings e e.formQuietly.2 := by
  have hform : e.formQuietly.2 = e.request (.call .formBatch) := by
    show e.formQuietly.2 = e.formBatch.2
    unfold Engine.formQuietly
    split <;> rename_i heq <;> rw [heq]
  rw [hform]
  exact single _ trivial fun time h => by cases h

theorem advanceNext (e : Engine) : Scheduled readings e e.advanceNext.2 :=
  single (.call .advanceNext) trivial fun time h => by cases h

theorem dispatchOne (e : Engine) : Scheduled readings e e.dispatchOne.2 :=
  single .dispatchOne trivial fun time h => by cases h

theorem awaitRetry (e : Engine) : Scheduled readings e e.awaitRetry := by
  unfold Engine.awaitRetry
  split
  · rename_i time hretry
    have hlater : e.now < time := by
      have hmem := List.min?_mem hretry
      simpa using (List.mem_filter.mp hmem).2
    have hnow : time = e.now + (time - e.now) := by omega
    rw [hnow]
    exact single (.call (.wait (time - e.now))) trivial fun time h => by cases h
  · exact refl e

theorem advanceTurn (e : Engine) : Scheduled readings e e.advanceTurn.2 := by
  have hform := formQuietly readings e
  unfold Engine.advanceTurn
  generalize e.formQuietly = formed at hform
  obtain ⟨crash, e'⟩ := formed
  cases crash with
  | some crash => exact hform
  | none =>
    have hadvance := hform.trans (advanceNext e')
    dsimp only at hadvance ⊢
    generalize e'.advanceNext = result at hadvance
    obtain ⟨result, e''⟩ := result
    cases result with
    | error crash => exact hadvance
    | ok report =>
      cases report with
      | some report => exact hadvance
      | none => exact hadvance.trans (awaitRetry e'')

theorem dispatchTurn (e : Engine) : Scheduled readings e e.dispatchTurn.2 := by
  have hform := formQuietly readings e
  unfold Engine.dispatchTurn
  generalize e.formQuietly = formed at hform
  obtain ⟨crash, e'⟩ := formed
  cases crash with
  | some crash => exact hform
  | none =>
    have hdispatch := hform.trans (dispatchOne e')
    dsimp only at hdispatch ⊢
    generalize e'.dispatchOne = result at hdispatch
    obtain ⟨result, e''⟩ := result
    cases result with
    | error error => exact hdispatch
    | ok handed =>
      cases handed with
      | true => exact hdispatch
      | false => exact hdispatch.trans (awaitRetry e'')

/-- A worker that does not crash leaves nothing behind but its advance. -/
theorem propagateTurn (e : Engine)
    (calm : ∀ crash, e.formQuietly.2.advanceNext.1 ≠ .error crash) :
    Scheduled readings e e.propagateTurn.2 := by
  have hform := formQuietly readings e
  unfold Engine.propagateTurn
  generalize e.formQuietly = formed at hform calm
  obtain ⟨crash, e'⟩ := formed
  cases crash with
  | some crash => exact hform
  | none =>
    have hadvance := hform.trans (advanceNext e')
    dsimp only at hadvance calm ⊢
    generalize e'.advanceNext = result at hadvance calm
    obtain ⟨result, e''⟩ := result
    cases result with
    | error crash => exact absurd rfl (calm crash)
    | ok report =>
      cases report with
      | some report => exact hadvance
      | none => exact hadvance.trans (awaitRetry e'')

/-- A drain of such turns is a schedule, whatever times the clocks show
before them: between the requests that form and advance batches stand
readings and waits. -/
theorem drainDuring {turn : Engine → Except Stop Unit × Engine}
    (turns : ∀ e, Scheduled readings e (turn e).2) {shown : List Nat}
    (known : shown ⊆ readings) (fuel : Nat) (e : Engine) :
    Scheduled readings e (Engine.drainDuring shown turn fuel e).2 := by
  induction fuel generalizing shown e with
  | zero => exact refl e
  | succ fuel ih =>
    have hread : Scheduled readings e (readNext e shown).1 := by
      cases shown with
      | nil => exact refl e
      | cons reading later => exact elapse (known List.mem_cons_self)
    have hturn := hread.trans (turns (readNext e shown).1)
    rw [drainDuring_succ]
    split
    · exact refl e
    · generalize turn (readNext e shown).1 = result at hturn
      obtain ⟨result, e'⟩ := result
      cases result with
      | ok _ => exact hturn.trans (ih (fun _ later => known (List.mem_of_mem_tail later)) e')
      | error stop => exact hturn

/-- Running an engine until nothing remains is a schedule of its own. -/
theorem runUntilDrained (e : Engine) : Scheduled readings e e.runUntilDrained.2 := by
  unfold Engine.runUntilDrained
  split
  · exact refl e
  · rw [← drainDuring_nil]
    exact drainDuring advanceTurn (List.nil_subset _) _ e

end Scheduled

/-! ## Drains -/

/-- Workers advance batches while the clocks show these times. -/
def propagateDuring (readings : List Nat) (e : Engine) : Except Stop Unit × Engine :=
  (propagateIn readNext e readings).1

/-- Advances are dispatched while the clocks show these times. -/
def dispatchDuring (readings : List Nat) (e : Engine) : Except Stop Unit × Engine :=
  (dispatchIn readNext e readings).1

theorem propagateDuring_eq (readings : List Nat) (e : Engine) :
    propagateDuring readings e = match e.startPropagation with
      | (.error error, e) => (.error (.error error), e)
      | (.ok (), e) =>
        match drainDuring readings propagateTurn e.drainBound e with
        | (.ok (), e) => (.ok (), e.stopPropagation.2)
        | stopped => stopped := by
  unfold propagateDuring propagateIn
  generalize e.startPropagation = started
  obtain ⟨result, e'⟩ := started
  cases result with
  | error error => rfl
  | ok _ =>
    unfold drainDuring
    dsimp only
    change ((match (drainIn readNext propagateTurn e'.drainBound e' readings).1 with
      | (.ok (), e) => pure (.ok (), e.stopPropagation.2)
      | stopped =>
        pure stopped : StateM (List Nat) (Except Stop Unit × Engine)) _).1 = _
    generalize drainIn readNext propagateTurn e'.drainBound e' readings = drained
    obtain ⟨⟨result, e''⟩, rest⟩ := drained
    cases result <;> rfl

theorem propagateDuring_nil (e : Engine) :
    propagateDuring [] e = e.propagateUntilDrained := by
  rw [propagateDuring_eq, propagateUntilDrained_eq]
  generalize e.startPropagation = started
  obtain ⟨result, e'⟩ := started
  cases result with
  | error error => rfl
  | ok _ =>
    have hdrain := @drainDuring_nil propagateTurn e'.drainBound e'
    dsimp only
    generalize drainDuring [] propagateTurn e'.drainBound e' = drained at hdrain
    subst hdrain
    rfl

theorem dispatchDuring_nil (e : Engine) :
    dispatchDuring [] e = e.dispatchUntilDrained := by
  rw [dispatchUntilDrained_eq]
  unfold dispatchDuring dispatchIn
  split
  · rfl
  · exact drainDuring_nil _ e

namespace Underway

variable {ex : Expectation} {nodes : Array Node} {count : Nat}

/-- While nothing disturbs an engine, a drain of turns that leave less to do is
a schedule, and leaves nothing. -/
theorem drainDuring (turn : Engine → Except Stop Unit × Engine)
    (turns : ∀ e' : Engine, e'.Underway ex nodes count → e'.HasRoom → e'.remaining ≠ 0 →
      (turn e').1 = .ok () ∧ (turn e').2.Underway ex nodes count ∧ (turn e').2.HasRoom ∧
      (turn e').2.load < e'.load ∧ Scheduled readings e' (turn e').2 ∧
      Moves e' (turn e').2) (h : e.Underway ex nodes count) (room : e.HasRoom)
    (clock : ∀ reading ∈ readings,
      (Calendar.instant? (reading - e.ledger.retention)).isSome = true) :
    (Engine.drainDuring readings turn e.drainBound e).1 = .ok () ∧
      Scheduled readings e (Engine.drainDuring readings turn e.drainBound e).2 ∧
      (Engine.drainDuring readings turn e.drainBound e).2.remaining = 0 := by
  let P (e' : Engine) : Prop := e'.Underway ex nodes count ∧ e'.HasRoom ∧
    e'.ledger.retention = e.ledger.retention ∧ Scheduled readings e e'
  have hpasses : ∀ reading ∈ readings, ∀ e', P e' →
      P (e'.elapse reading) ∧ (e'.elapse reading).load ≤ e'.load := by
    rintro reading hreading e' ⟨hunderway, hroom, hretention, hscheduled⟩
    have hpassed := hunderway.elapse (hretention ▸ clock reading hreading)
    exact ⟨⟨hpassed, hroom, hretention, hscheduled.trans (.elapse hreading)⟩,
      Nat.le_refl _⟩
  have hturns : ∀ e', P e' → e'.remaining ≠ 0 →
      (turn e').1 = .ok () ∧ P (turn e').2 ∧ (turn e').2.load < e'.load := by
    rintro e' ⟨hunderway, hroom, hretention, hscheduled⟩ remains
    obtain ⟨hok, hnext, hroom', hless, hturn, hmoves⟩ :=
      turns e' hunderway hroom remains
    exact ⟨hok,
      ⟨hnext, hroom', (carries_of_moves hmoves).retention.trans hretention,
        hscheduled.trans hturn⟩,
      hless⟩
  obtain ⟨hok, ⟨-, -, -, hscheduled⟩, hzero⟩ :=
    drainDuring_of_headway hpasses hturns _ ⟨h, room, rfl, .refl e⟩ e.load_le_drainBound
  exact ⟨hok, hscheduled, hzero⟩

/-- No worker crashes while nothing disturbs the engine. -/
theorem scheduled_propagateTurn (h : e.Underway ex nodes count)
    (remains : e.remaining ≠ 0) :
    Scheduled readings e e.propagateTurn.2 := by
  obtain ⟨hgoing, hformed, -⟩ := h.formBatch remains
  refine .propagateTurn e fun crash hcrash => ?_
  rw [formQuietly_of_going hgoing] at hcrash
  by_cases hlive : e.formBatch.2.registry.batches = []
  · rw [(advanceNext_of_idle _ hformed.registered.kept hlive).1] at hcrash
    cases hcrash
  · obtain ⟨⟨report, hreport⟩, -⟩ := hformed.advanceNext hlive
    rw [hreport] at hcrash
    cases hcrash

/-- Workers that advance batches on their own leave nothing, and what they
do is a schedule. -/
theorem propagateDuring (h : e.Underway ex nodes count) (idle : e.propagating = false)
    (room : e.HasRoom)
    (clock : ∀ reading ∈ readings,
      (Calendar.instant? (reading - e.ledger.retention)).isSome = true) :
    (Engine.propagateDuring readings e).1 = .ok () ∧
      Scheduled readings e (Engine.propagateDuring readings e).2 ∧
      (Engine.propagateDuring readings e).2.remaining = 0 := by
  have hstart : Scheduled readings e e.startPropagation.2 :=
    .single .startPropagation trivial fun time h => by cases h
  have hstarted : e.startPropagation.1 = .ok () ∧ Receives [] e e.startPropagation.2 ∧
      e.startPropagation.2.pool = e.pool := by
    unfold startPropagation
    rw [idle]
    exact ⟨rfl, receives_nil .., rfl⟩
  rw [propagateDuring_eq]
  generalize e.startPropagation = started at hstart hstarted
  obtain ⟨result, e₁⟩ := started
  obtain ⟨hok, hrest, hpool⟩ := hstarted
  subst hok
  have hroom : e₁.HasRoom := by
    obtain ⟨pool, hsome, hroom⟩ := room
    exact ⟨pool, hpool.trans hsome, hrest.config ▸ hroom⟩
  rw [← hrest.retention] at clock
  have hdrained := (h.receives hrest).1.drainDuring Engine.propagateTurn
    (fun e' hunderway hroom remains =>
      have ⟨hok, hnext, hless⟩ := hunderway.propagateTurn remains
      ⟨hok, hnext, lasting_hasRoom.propagateTurn hroom, hless,
        hunderway.scheduled_propagateTurn remains, e'.moves_propagateTurn⟩) hroom clock
  dsimp only
  generalize Engine.drainDuring readings Engine.propagateTurn e₁.drainBound e₁ = drained
    at hdrained
  obtain ⟨result, e₂⟩ := drained
  obtain ⟨hok, hscheduled, hzero⟩ := hdrained
  subst hok
  have hstop : Scheduled readings e₂ e₂.stopPropagation.2 :=
    .single .stopPropagation trivial fun time h => by cases h
  have hremaining : e₂.stopPropagation.2.remaining = e₂.remaining := by
    unfold stopPropagation
    split <;> rfl
  exact ⟨rfl, (hstart.trans hscheduled).trans hstop, hremaining.trans hzero⟩

/-- So are the advances that a dispatcher with room in the pool hands over. -/
theorem dispatchDuring (h : e.Underway ex nodes count) (idle : e.propagating = false)
    (room : e.HasRoom)
    (clock : ∀ reading ∈ readings,
      (Calendar.instant? (reading - e.ledger.retention)).isSome = true) :
    (Engine.dispatchDuring readings e).1 = .ok () ∧
      Scheduled readings e (Engine.dispatchDuring readings e).2 ∧
      (Engine.dispatchDuring readings e).2.remaining = 0 := by
  have hdrain : Engine.dispatchDuring readings e =
      Engine.drainDuring readings Engine.dispatchTurn e.drainBound e := by
    unfold Engine.dispatchDuring dispatchIn
    rw [idle]
    rfl
  rw [hdrain]
  refine h.drainDuring Engine.dispatchTurn (fun e' hunderway hroom remains => ?_) room clock
  obtain ⟨hok, ⟨hnext, hroom'⟩, hless⟩ := hunderway.dispatchTurn hroom remains
  exact ⟨hok, hnext, hroom', hless, .dispatchTurn e', e'.moves_dispatchTurn⟩

end Underway

end Lockstep.Engine
