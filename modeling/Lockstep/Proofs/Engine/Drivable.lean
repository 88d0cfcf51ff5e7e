import Lockstep.Proofs.Batch.Lifetime
import Lockstep.Proofs.Engine.Faithful
import Lockstep.Proofs.Engine.Registered
import Lockstep.Proofs.Engine.Requests
set_option autoImplicit false

/-!
# Engines that can be driven

Whatever was asked of an engine before, and whatever its scans and operators did
then, it can be driven: its registry is kept well and free of empty batches,
nobody holds a batch, the ledger takes deliveries, and every operation that
waits and every batch has a scan of its own.  Nothing is said of the rows of
these scans or of the chains behind them.
-/

namespace Lockstep

/-- A step of an operation on its own moves no scan but its own, which
goes on feeding it. -/
theorem Operation.onlyMoves_step (op : Operation) (s : Scans) :
    Scans.OnlyMoves op.pipeline.cursor s (op.step false s).2.2 ∧
      (op.step false s).2.1.pipeline.cursor = op.pipeline.cursor := by
  cases hover : op.isOver with
  | true =>
    rw [step_of_isOver hover]
    exact ⟨.refl _ s, op.cursor_stop false⟩
  | false =>
    rw [step_of_not_isOver hover]
    exact ⟨op.onlyMoves_scansAfter s, op.cursor_take false _⟩

/-- A formed batch is fed by the cursor of one of its operations. -/
theorem Batch.exists_leader {name : String} {ops : List Operation} {s : Scans}
    {b : Batch} (h : form name ops s = .ok b) :
    ∃ leader ∈ ops, ∀ op ∈ b.members, op.pipeline.cursor = leader.pipeline.cursor := by
  cases ops with
  | nil => cases h
  | cons first others =>
    obtain ⟨hmembers, -⟩ := grouped_of_form_ok h
    refine ⟨first, List.mem_cons_self, fun op hop => ?_⟩
    obtain ⟨op₀, -, cached, rfl⟩ := mem_grouped (hmembers ▸ hop)
    rfl

namespace Engine

variable {e e' : Engine}

/-! ## Scans of their own, whatever they give -/

/-- A formed batch goes on with the scan of one of its operations. -/
theorem feeds_any_formed (h : e.scans.Feeds .any e.groups) (sound : e.registry.Sound)
    {name : String} {b : Batch} {index : Nat} {r : Registry}
    (form : Batch.form name e.front.1 e.scans = .ok b)
    (insert : e.registry.insert? b = some (index, r)) :
    e.scans.Feeds .any
      ({ e with queue := e.front.2, registry := r } : Engine).groups := by
  obtain ⟨leader, hleader, hcursor⟩ := Batch.exists_leader form
  exact feeds_formed h sound insert hleader (Batch.inStep_any_iff.mpr hcursor)

theorem feeds_any_stepped (h : e.scans.Feeds .any e.groups) {index : Nat}
    {op op' : Operation} {queue : Queue} {s : Scans}
    {result : Except Interruption StepResult}
    (took : e.queue.takeAt? index = some (op, queue))
    (step : op.step false e.scans = (result, op', s)) :
    Scans.OnlyMoves op.pipeline.cursor e.scans s ∧
      s.Feeds .any
        ({ e with queue := queue.reinsert index op', scans := s } : Engine).groups ∧
      s.Feeds .any ({ e with queue := queue, scans := s } : Engine).groups := by
  obtain ⟨hmoves, hcursor⟩ := op.onlyMoves_step e.scans
  rw [step] at hmoves hcursor
  exact ⟨hmoves, feeds_stepped h took hmoves
    (Batch.inStep_any_iff.mpr (List.forall_mem_singleton.mpr hcursor))⟩

theorem feeds_any_accepted (h : e.scans.Feeds .any e.groups) (query : String)
    (plan : Plan) :
    (plan.openScan e.scans).2.Feeds .any ({ e with
      queue := (e.queue.enqueue query (plan.openScan e.scans).1).2
      scans := (plan.openScan e.scans).2 } : Engine).groups :=
  feeds_accepted h query plan
    (Batch.inStep_any_iff.mpr (List.forall_mem_singleton.mpr rfl))

/-! ## What can be driven -/

/-- An engine whose batches can be formed and advanced. -/
structure Drivable (e : Engine) : Prop where
  registered : e.Registered
  unlocked : ∀ b ∈ e.registry.batches, b.locked = false
  ready : e.receiver = none
  feeds : e.scans.Feeds .any e.groups
  batchSize : 0 < e.config.batchSize
  stride : 0 < e.config.stride

namespace Drivable

theorem of_receives {e₁ : Engine} {taken : List Delivery} (h : e.Drivable)
    (rest : Receives taken e₁ e') (config : e₁.config = e.config)
    (ready : e₁.receiver = none) (registered : e'.Registered)
    (unlocked : ∀ b ∈ e₁.registry.batches, b.locked = false)
    (feeds : e₁.scans.Feeds .any e₁.groups) :
    e'.Drivable := by
  have hconfig : e'.config = e.config := rest.config.trans config
  refine ⟨registered, ?_, rest.receiver.trans ready, feeds_receives feeds rest,
    hconfig ▸ h.batchSize, hconfig ▸ h.stride⟩
  rw [rest.registry]
  exact unlocked

theorem dropQueue (h : e.Drivable) {queue : Queue}
    (sub : queue.operations.Sublist e.queue.operations) {taken : List Delivery}
    (rest : Receives taken { e with queue := queue } e') : e'.Drivable :=
  h.of_receives rest rfl h.ready (h.registered.congr rest.registry) h.unlocked
    (feeds_dropQueue h.feeds sub)

theorem formed (h : e.Drivable) {name : String} {b : Batch} {index : Nat} {r : Registry}
    (form : Batch.form name e.front.1 e.scans = .ok b)
    (insert : e.registry.insert? b = some (index, r))
    (rest : Receives [] { e with queue := e.front.2, registry := r } e') :
    e'.Drivable := by
  have hsound := h.registered.kept.sound
  refine h.of_receives rest rfl h.ready
    (h.registered.formed form insert rest.registry) ?_
    (feeds_any_formed h.feeds hsound form insert)
  dsimp only
  rw [(Registry.batches_insert? hsound insert).2]
  exact List.forall_mem_append.mpr
    ⟨h.unlocked, List.forall_mem_singleton.mpr (Batch.refed_of_form_ok form).2⟩

theorem stepped (h : e.Drivable) {index : Nat} {op op' : Operation} {queue : Queue}
    {s : Scans} {result : Except Interruption StepResult}
    (took : e.queue.takeAt? index = some (op, queue))
    (step : op.step false e.scans = (result, op', s)) {taken : List Delivery}
    (rest : Receives taken { e with queue := queue.reinsert index op', scans := s }
      e' ∨ Receives taken { e with queue := queue, scans := s } e') : e'.Drivable := by
  obtain ⟨-, hback, hleft⟩ := feeds_any_stepped h.feeds took step
  rcases rest with rest | rest
  · exact h.of_receives rest rfl h.ready
      (h.registered.congr rest.registry) h.unlocked hback
  · exact h.of_receives rest rfl h.ready
      (h.registered.congr rest.registry) h.unlocked hleft

theorem advanced (h : e.Drivable) {index : Nat} {b : Batch} {r : Registry}
    (live : e.registry.get? index = some b)
    (resettled : e.registry.Resettled index
      (e.scheduler.guardedAdvance e.receiver b e.scans).batch r)
    {taken : List Delivery}
    (rest : Receives taken
      { e with
        registry := r
        scans := (e.scheduler.guardedAdvance e.receiver b e.scans).scans } e')
    (registered : e'.Registered) : e'.Drivable := by
  obtain ⟨hfeeds, -, -, -⟩ :=
    (h.feeds.perm (groups_of_get? live)).guardedAdvance e.scheduler e.receiver
  refine h.of_receives rest rfl h.ready registered ?_ (feeds_resettled resettled hfeeds)
  refine resettled.forall_batches live h.unlocked fun _ => ?_
  exact (Scheduler.locked_guardedAdvance ..).trans
    (h.unlocked b (Registry.mem_batches_of_get? live))

/-- After every move an engine can still be driven. -/
theorem move (h : e.Drivable) (hmove : Move e e') : e'.Drivable := by
  have hregistered : e'.Registered := h.registered.move h.ready hmove
  cases hmove with
  | idle rest => exact h.dropQueue (List.Sublist.refl _) rest
  | formed form insert rest => exact h.formed form insert rest
  | refused form some all rest => exact h.dropQueue e.sublist_front rest
  | stepped took step going unfinished rest => exact h.stepped took step (.inl rest)
  | completed took step rest => exact h.stepped took step (.inr rest)
  | failed took step rest => exact h.stepped took step (.inr rest)
  | advanced live registry emptied rest =>
    exact h.advanced live (registry h.registered.kept.sound) rest hregistered
  | abandonedQueue some all rest => exact h.dropQueue (List.nil_sublist _) rest
  | abandonedBatches some all rest =>
    obtain ⟨-, -, hbatches⟩ := Registry.batches_drain h.registered.kept.sound
    refine h.of_receives rest rfl h.ready hregistered ?_
      (feeds_drained h.feeds h.registered.kept.sound)
    dsimp only
    rw [hbatches]
    exact List.forall_mem_nil _

theorem moves (h : e.Drivable) (hmoves : Moves e e') : e'.Drivable := by
  induction hmoves with
  | refl => exact h
  | tail _ hmove ih => exact ih.move hmove

/-- No other group is fed by the cursor of a batch. -/
theorem apart (h : e.Drivable) {index : Nat} {b : Batch}
    (live : e.registry.get? index = some b) :
    ∃ id, e.scans.IsOpen id ∧ (∀ op ∈ b.members, op.pipeline.cursor = id) ∧
      ∀ ops ∈ e.groupsBut index, ∀ op ∈ ops, op.pipeline.cursor ≠ id := by
  have hfeeds : e.scans.Feeds .any ([b.members] ++ e.groupsBut index) :=
    h.feeds.perm (groups_of_get? live)
  have hown : b.members ∈ [b.members] := List.mem_singleton_self _
  obtain ⟨id, hopen, hstep⟩ := hfeeds.each b.members (List.mem_append_left _ hown)
  have hcursor := Batch.inStep_any_iff.mp hstep
  obtain ⟨op, hop⟩ :=
    List.exists_mem_of_ne_nil _
      (h.registered.peopled b (Registry.mem_batches_of_get? live))
  exact ⟨id, hopen, hcursor, hcursor op hop ▸ hfeeds.ne_of_mem hown hop⟩

/-! ## Requests -/

theorem accepted (h : e.Drivable) {query : String} {plan : Plan}
    (rest : Receives [] { e with
      queue := (e.queue.enqueue query (plan.openScan e.scans).1).2
      scans := (plan.openScan e.scans).2 } e') : e'.Drivable :=
  h.of_receives rest rfl h.ready (h.registered.congr rest.registry) h.unlocked
    (feeds_any_accepted h.feeds query plan)

/-- After every request an engine can be driven, as long as the ledger's
clock stays in reach. -/
theorem request (h : e.Drivable) (request : Request)
    (clock : ∀ time, request = .call (.tick time) →
      (Calendar.instant? (time - e.ledger.retention)).isSome = true) :
    (e.request request).Drivable ∧ (e.request request).ledger.retention =
      e.ledger.retention := by
  have hcase := e.requestCase request
  generalize e.request request = e' at hcase
  cases hcase with
  | accepted rest => exact ⟨h.accepted rest, rest.retention⟩
  | moved moves => exact ⟨h.moves moves, (carries_of_moves moves).retention⟩
  | lost loss =>
    cases loss with
    | lost took step rest => exact ⟨h.stepped took step (.inr rest), rest.retention⟩
  | ticked time =>
    exact ⟨⟨h.registered.congr rfl, h.unlocked,
      Ledger.obstacle?_of_isSome (clock time rfl), h.feeds, h.batchSize, h.stride⟩, rfl⟩
  | disturbed d =>
    exact ⟨⟨h.registered.congr rfl, h.unlocked, h.ready, h.feeds.disturb d, h.batchSize,
      h.stride⟩, rfl⟩

theorem requestAll (h : e.Drivable) (requests : List Request)
    (clock : ∀ time, .call (.tick time) ∈ requests →
      (Calendar.instant? (time - e.ledger.retention)).isSome = true) :
    (e.requestAll requests).Drivable ∧
      (e.requestAll requests).ledger.retention = e.ledger.retention := by
  induction requests generalizing e with
  | nil => exact ⟨h, rfl⟩
  | cons request requests ih =>
    obtain ⟨hfirst, hretention⟩ := h.request request fun time htime =>
      clock time (htime ▸ List.mem_cons_self)
    obtain ⟨hlast, hsame⟩ := ih hfirst fun time htime => by
      rw [hretention]
      exact clock time (List.mem_cons_of_mem _ htime)
    exact ⟨hlast, hsame.trans hretention⟩

/-- A new engine can be driven. -/
theorem create {config : Config} {names : Names} {graph : Graph}
    (made : Engine.create config names graph = .ok e) :
    e.Drivable ∧ e.ledger.retention = config.retentionMs := by
  obtain ⟨haccounts, hretention, -⟩ := accounts_create made
  obtain ⟨valid, rfl⟩ := create_eq_ok_iff.mp made
  obtain ⟨hbatch, hstride, -⟩ := Config.pos_of_validate valid
  exact ⟨⟨.fresh config names graph, haccounts.unlocked, haccounts.ready, .nil, hbatch,
    hstride⟩, hretention⟩

end Drivable

end Engine

end Lockstep
