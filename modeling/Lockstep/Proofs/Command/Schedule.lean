import Lockstep.Proofs.Batch.Verdict
import Lockstep.Proofs.Command.Deferred
import Lockstep.Proofs.Engine.Schedule
set_option autoImplicit false

/-!
# Outcomes do not depend on the schedule

While a graph stays as it is, forming and advancing batches can be put in any
order.  Refusals of a full registry or a closed gate change nothing, so the queue
is handed out in the same runs by every schedule, and a run is either refused as a
whole or becomes a batch that follows its operations.  Each operation is delivered
with its verdict, which hangs on the graph and on its run alone.
-/

namespace Lockstep

/-- Outcomes of which each is that of an operation are those of all operations,
in some order, if every number is that of one. -/
theorem Outcomes.perm_of_verdicts {ops : List Operation} {outcomes : List Outcome}
    {verdict : Operation → Outcome}
    (numbered : ops.map Operation.sequence = List.range ops.length)
    (sequence : ∀ op, (verdict op).sequence = op.sequence)
    (verdicts : ∀ o ∈ outcomes, ∃ op ∈ ops, o = verdict op)
    (all : (outcomes.map Outcome.sequence).Perm (List.range ops.length)) :
    outcomes.Perm (ops.map verdict) := by
  have hnumbers : (ops.map verdict).map Outcome.sequence = List.range ops.length := by
    rw [← numbered, List.map_map]
    exact List.map_congr_left fun op _ => sequence op
  have hdistinct : outcomes.Nodup := .of_map _ (all.nodup_iff.mpr List.nodup_range)
  have hsubset : outcomes ⊆ ops.map verdict := by
    intro o ho
    obtain ⟨op, hop, rfl⟩ := verdicts o ho
    exact List.mem_map_of_mem hop
  have hlength := all.length_eq
  rw [List.length_map, List.length_range] at hlength
  refine (List.subperm_of_subset hdistinct hsubset).perm_of_length_le ?_
  rw [List.length_map, hlength]

namespace Engine

variable {config : Config} {g : Graph} {ops : List Operation} {e e' : Engine}

/-- The outcome is what becomes of one of the operations that waited at first. -/
def IsVerdict (size : Nat) (g : Graph) (ops : List Operation) (o : Outcome) : Prop :=
  ∃ op ∈ ops, o = op.verdict g (Queue.companions size ops op)

/-- The batch follows operations whose verdict is their own outcome. -/
def FollowsRun (size : Nat) (g : Graph) (ops : List Operation) (s : Scans) (b : Batch) :
    Prop :=
  ∃ run id,
    (∀ op ∈ run, op ∈ ops ∧ op.verdict g (Queue.companions size ops op) =
      op.ownOutcome g) ∧
    b.Follows g run id s

/-- Whatever was done so far, the operations of an engine have the verdicts
ahead that they had at first. -/
structure OnSchedule (config : Config) (g : Graph) (ops : List Operation) (e : Engine) :
    Prop where
  drivable : e.Drivable
  accounts : e.Accounts
  stocked : e.Stocked config.outcomeCapacity
  configured : e.config = config
  graph : e.scans.graph = g
  next : e.queue.nextSequence = ops.length
  runs : ∃ run, e.queue.operations = ops.drop (run * config.batchSize)
  waits : ∀ op ∈ e.queue.operations, op.isStarted = false ∧ op.Waits e.scans
  follows : ∀ b ∈ e.registry.batches, FollowsRun config.batchSize g ops e.scans b
  delivered : ∀ d ∈ e.delivered, IsVerdict config.batchSize g ops d.outcome
  outcomes : ∀ o ∈ e.outcomes, IsVerdict config.batchSize g ops o

namespace OnSchedule

/-- It is enough to say what becomes of the queue, the batches and the scans,
and that verdicts were received. -/
theorem of_receives (h : e.OnSchedule config g ops) (hmove : Move e e')
    (stocked : e'.Stocked config.outcomeCapacity) {queue : Queue} {r : Registry}
    {s : Scans} {taken : List Delivery}
    (rest : Receives taken { e with queue := queue, registry := r, scans := s } e')
    (graph : s.graph = g)
    (runs : ∃ run, queue.operations = ops.drop (run * config.batchSize))
    (waits : ∀ op ∈ queue.operations, op.isStarted = false ∧ op.Waits s)
    (follows : ∀ b ∈ r.batches, FollowsRun config.batchSize g ops s b)
    (verdicts : ∀ d ∈ taken, IsVerdict config.batchSize g ops d.outcome) :
    e'.OnSchedule config g ops where
  drivable := h.drivable.move hmove
  accounts := h.accounts.move hmove
  stocked := stocked
  configured := rest.config.trans h.configured
  graph := (congrArg _ rest.scans).trans graph
  next := hmove.carries.next.trans h.next
  runs := by
    rw [rest.queue]
    exact runs
  waits := by
    rw [rest.queue, rest.scans]
    exact waits
  follows := by
    rw [rest.registry, rest.scans]
    exact follows
  delivered := by
    rw [rest.delivered]
    exact List.forall_mem_append.mpr
      ⟨fun d hd => verdicts d (List.mem_reverse.mp hd), h.delivered⟩
  outcomes := by
    intro o ho
    rcases rest.outcomes o ho with hold | ⟨d, hd, rfl⟩
    · exact h.outcomes o hold
    · exact verdicts d hd

/-! ## Forming batches -/

/-- The next batch takes a run, and leaves the runs after it. -/
theorem front (h : e.OnSchedule config g ops) :
    ∃ run, e.front.1 = (ops.drop (run * config.batchSize)).take config.batchSize ∧
      e.front.2.operations = ops.drop ((run + 1) * config.batchSize) := by
  obtain ⟨run, hqueue⟩ := h.runs
  have hfront : e.front = (e.queue.operations.take config.batchSize,
      { e.queue with operations := e.queue.operations.drop config.batchSize }) := by
    rw [← h.configured]
    exact Queue.drainBatch_of_fresh (fun op hop => (h.waits op hop).1) _
  refine ⟨run, ?_, ?_⟩
  · rw [hfront, hqueue]
  · rw [hfront, Nat.succ_mul, ← List.drop_drop, hqueue]

theorem unstarted_front (h : e.OnSchedule config g ops) {op : Operation}
    (hop : op ∈ e.front.1) :
    op.Unstarted e.scans ∧ Link.IsSound op.pipeline.links ∧
      (e.scans.cursor op.pipeline.cursor).source = .graph op.pipeline.kind 0 := by
  obtain ⟨hfresh, hwaits⟩ := h.waits op (e.mem_front (.inl hop))
  exact ⟨(hwaits.start hfresh).1, hwaits.sound, (hwaits.start hfresh).2⟩

/-- A run that is grouped becomes a batch that follows it. -/
theorem followsRun_formed (h : e.OnSchedule config g ops) (quiet : g.IsQuiet)
    (numbered : ops.map Operation.sequence = List.range ops.length) {name : String}
    {b : Batch} (form : Batch.form name e.front.1 e.scans = .ok b) :
    FollowsRun config.batchSize g ops e.scans b := by
  obtain ⟨run, hfront, -⟩ := h.front
  have hunstarted := fun op (hop : op ∈ e.front.1) => h.unstarted_front hop
  have hsome : e.front.1 ≠ [] := by
    intro hnone
    rw [hnone] at form
    cases form
  have hfits : Batch.misfit? e.front.1 = none := by
    rw [Batch.misfit?_of_form hsome fun op hop => (hunstarted op hop).1.pristine.pulls, form]
  obtain ⟨first, others, hsplit⟩ := List.exists_cons_of_ne_nil hsome
  refine ⟨e.front.1, first.pipeline.cursor, fun op hop => ⟨?_, ?_⟩, ?_⟩
  · exact List.mem_of_mem_drop (List.mem_of_mem_take (hfront ▸ hop))
  · have hown : Queue.companions config.batchSize ops op = e.front.1 :=
      (Queue.companions_eq numbered (hfront ▸ hop)).trans hfront.symm
    unfold Operation.verdict
    rw [hown, hfits]
  · rw [hsplit] at form hunstarted ⊢
    rw [← h.graph]
    exact Batch.follows_of_form form (fun op hop => (hunstarted op hop).1)
      (fun op hop => (hunstarted op hop).2.1)
      (hunstarted first List.mem_cons_self).2.2 (h.graph ▸ quiet)

/-- A run that is refused gets its verdicts at once. -/
theorem verdicts_refused (h : e.OnSchedule config g ops)
    (numbered : ops.map Operation.sequence = List.range ops.length) {name : String}
    {f : Failure} {operations : List Operation} (nonempty : e.front.1 ≠ [])
    (form : Batch.form name e.front.1 e.scans = .error ⟨f, operations⟩) :
    ∀ op' ∈ operations,
      IsVerdict config.batchSize g ops (Delivery.outcome ⟨op', .failed f.display⟩) := by
  intro op' hop'
  obtain ⟨run, hfront, -⟩ := h.front
  have hmisfit : Batch.misfit? e.front.1 = some f := by
    rw [Batch.misfit?_of_form nonempty fun op hop =>
      (h.unstarted_front hop).1.pristine.pulls, form]
  obtain ⟨op, hop, hrefed⟩ := Batch.exists_refed (Batch.refed_of_form_error form) hop'
  have hown : Queue.companions config.batchSize ops op = e.front.1 :=
    (Queue.companions_eq numbered (hfront ▸ hop)).trans hfront.symm
  refine ⟨op, List.mem_of_mem_drop (List.mem_of_mem_take (hfront ▸ hop)), ?_⟩
  exact Operation.outcome_refused (h.unstarted_front hop).1 hrefed (hown ▸ hmisfit)

/-- Whether or not a batch is formed, the verdicts stay as they were. -/
theorem formBatch (h : e.OnSchedule config g ops) (quiet : g.IsQuiet)
    (numbered : ops.map Operation.sequence = List.range ops.length) :
    e.formBatch.2.OnSchedule config g ops := by
  have hmove := e.move_formBatch
  have hstocked := (lasting_stocked _).formBatch h.stocked
  have hforming := e.forming_formBatch
  generalize e.formBatch.1 = result at hforming
  generalize e.formBatch.2 = e' at hforming hmove hstocked
  obtain ⟨run, -, hbehind⟩ := h.front
  have hwaits : ∀ op ∈ e.front.2.operations, op.isStarted = false ∧ op.Waits e.scans :=
    fun op hop => h.waits op (e.mem_front (.inr hop))
  cases hforming with
  | full full rest =>
    exact h.of_receives hmove hstocked rest h.graph h.runs h.waits h.follows
      (List.forall_mem_nil _)
  | idle empty => exact h
  | formed form insert rest =>
    refine h.of_receives hmove hstocked rest h.graph ⟨_, hbehind⟩ hwaits ?_
      (List.forall_mem_nil _)
    rw [(Registry.batches_insert? h.accounts.sound insert).2]
    exact List.forall_mem_append.mpr
      ⟨h.follows, List.forall_mem_singleton.mpr
        (h.followsRun_formed quiet numbered form)⟩
  | refused nonempty form some all rest =>
    refine h.of_receives hmove hstocked rest h.graph ⟨_, hbehind⟩ hwaits h.follows
      fun d hd => ?_
    obtain ⟨op', hop', rfl⟩ := List.mem_map.mp (some.subset hd)
    exact h.verdicts_refused numbered nonempty form op' hop'

/-! ## Advancing batches -/

/-- An advance delivers verdicts and disturbs neither its batch nor what
it does not move. -/
theorem advanced (h : e.OnSchedule config g ops) (hmove : Move e e')
    (hstocked : e'.Stocked config.outcomeCapacity) {index : Nat} {b : Batch} {r : Registry}
    (live : e.registry.get? index = some b)
    (resettled : e.registry.Resettled index
      (e.scheduler.guardedAdvance none b e.scans).batch r)
    (rest : Receives (e.scheduler.guardedAdvance none b e.scans).deliveries
      { e with
        registry := r
        scans := (e.scheduler.guardedAdvance none b e.scans).scans } e') :
    e'.OnSchedule config g ops := by
  obtain ⟨id, hopen, hcursor, happart⟩ := h.drivable.apart live
  have hmoves :=
    (e.scheduler.kept_guardedAdvance none hopen
      (Batch.inStep_any_iff.mpr hcursor)).1.moves
  obtain ⟨run, id', hrun, hfollows⟩ := h.follows b (Registry.mem_batches_of_get? live)
  obtain ⟨hnew, hgraph, hdelivered⟩ := hfollows.guardedAdvance e.scheduler
  generalize e.scheduler.guardedAdvance none b e.scans = a
    at resettled rest hmoves hnew hgraph hdelivered
  -- the scan of any other group is where it was
  have hothers : ∀ group ∈ e.groupsBut index, ∀ op ∈ group,
      a.scans.IsOpen op.pipeline.cursor ∧
        a.scans.cursor op.pipeline.cursor = e.scans.cursor op.pipeline.cursor := by
    intro group hgroup op hop
    have hmem : group ∈ e.groups :=
      (groups_of_get? live).symm.subset (List.mem_cons_of_mem _ hgroup)
    exact ⟨hmoves.isOpen (h.drivable.feeds.onCourse hmem hop).1,
      hmoves.others _ (happart group hgroup op hop)⟩
  refine h.of_receives hmove hstocked rest hgraph h.runs (fun op hop => ?_) ?_
    fun d hd => ?_
  · obtain ⟨hfresh, hwaits⟩ := h.waits op hop
    obtain ⟨hopen', hsame⟩ :=
      hothers [op] (List.mem_append_left _ (List.mem_map_of_mem hop)) op
        (List.mem_singleton_self op)
    exact ⟨hfresh, hwaits.congr hopen' hsame⟩
  · refine resettled.forall_others (fun other hother => ?_) fun retryAt =>
      ⟨run, id', hrun, hnew retryAt⟩
    have hlive := Registry.mem_batches_of_others live hother
    obtain ⟨run', id'', hrun', hfollows'⟩ := h.follows other hlive
    obtain ⟨op, hop⟩ :=
      List.exists_mem_of_ne_nil _ (h.drivable.registered.peopled other hlive)
    obtain ⟨hopen', hsame⟩ :=
      hothers other.members
        (List.mem_append_right _ (List.mem_map_of_mem hother)) op hop
    rw [hfollows'.cursor op hop] at hopen' hsame
    exact ⟨run', id'', hrun', hfollows'.elsewhere hopen' hgraph hsame⟩
  · obtain ⟨op, hop, houtcome⟩ := hdelivered d hd
    obtain ⟨hmem, hverdict⟩ := hrun op hop
    exact ⟨op, hmem, houtcome.trans hverdict.symm⟩

/-- Whatever batch a turn advances, if any, the verdicts stay as they were. -/
theorem settle (h : e.OnSchedule config g ops) {turn : Turn}
    (hcase : Scheduler.TurnCase e.scheduler e.receiver e.registry e.scans turn) :
    (e.settle turn).OnSchedule config g ops := by
  have hmove := move_settle hcase
  have hstocked := (lasting_stocked _).settle turn h.stocked
  have hreceives := e.receives_settle turn
  rw [h.drivable.ready] at hcase
  cases hcase with
  | idle report crash registry scans deliveries =>
    rw [registry, scans, deliveries] at hreceives
    exact h.of_receives hmove hstocked hreceives h.graph h.runs h.waits h.follows
      (List.forall_mem_nil _)
  | advanced index live report registry emptied scans deliveries =>
    rw [scans, deliveries] at hreceives
    exact h.advanced hmove hstocked live (registry h.accounts.sound) hreceives

theorem advanceIndex (h : e.OnSchedule config g ops) (index : Nat) :
    (e.advanceIndex index).2.OnSchedule config g ops := by
  have hsettled : (e.settle
      (e.scheduler.advanceIndex e.receiver e.now index e.registry e.scans
          e.metrics)).OnSchedule config g ops :=
    h.settle (Scheduler.turnCase_advanceIndex index)
  unfold Engine.advanceIndex
  dsimp only
  split <;> exact hsettled

theorem advanceNext (h : e.OnSchedule config g ops) :
    e.advanceNext.2.OnSchedule config g ops := by
  have hsettled : (e.settle
      (e.scheduler.advanceNext e.receiver e.now e.registry e.scans
          e.metrics)).OnSchedule config g ops :=
    h.settle Scheduler.turnCase_advanceNext
  unfold Engine.advanceNext
  dsimp only
  split <;> exact hsettled

/-! ## Schedules -/

theorem unmoved (h : e.OnSchedule config g ops) (unmoved : Unmoved e e') :
    e'.OnSchedule config g ops :=
  h.of_receives (.idle unmoved.receives) (h.stocked.unmoved unmoved) unmoved.receives
    h.graph h.runs h.waits h.follows (List.forall_mem_nil _)

/-- No request that drives batches changes the verdicts. -/
theorem request (h : e.OnSchedule config g ops) (quiet : g.IsQuiet)
    (numbered : ops.map Operation.sequence = List.range ops.length) {request : Request}
    (drive : request.IsDrive)
    (clock : ∀ time, request = .call (.tick time) →
      (Calendar.instant? (time - e.ledger.retention)).isSome = true) :
    (e.request request).OnSchedule config g ops := by
  have hcase := e.driveCase drive
  have hdrivable := (h.drivable.request request clock).1
  generalize e.request request = e' at hcase hdrivable
  cases hcase with
  | formed => exact h.formBatch quiet numbered
  | next => exact h.advanceNext
  | index before index behind =>
    exact ((h.unmoved before).advanceIndex index).unmoved behind
  | unmoved unmoved => exact h.unmoved unmoved
  | ticked time =>
    exact ⟨hdrivable,
      ⟨h.accounts.sound, h.accounts.unlocked, hdrivable.ready, h.accounts.numbers⟩,
      ⟨hdrivable.ready, h.stocked.limit, h.stocked.outcomes⟩, h.configured, h.graph,
      h.next, h.runs, h.waits, h.follows, h.delivered, h.outcomes⟩

theorem requestAll (h : e.OnSchedule config g ops) (quiet : g.IsQuiet)
    (numbered : ops.map Operation.sequence = List.range ops.length)
    (requests : List Request) (drives : ∀ request ∈ requests, request.IsDrive)
    (clock : ∀ time, .call (.tick time) ∈ requests →
      (Calendar.instant? (time - e.ledger.retention)).isSome = true) :
    (e.requestAll requests).OnSchedule config g ops := by
  induction requests generalizing e with
  | nil => exact h
  | cons request requests ih =>
    obtain ⟨hdrive, hdrives⟩ := List.forall_mem_cons.mp drives
    have hclock : ∀ time, request = .call (.tick time) →
        (Calendar.instant? (time - e.ledger.retention)).isSome =
            true := fun time htime =>
      clock time (htime ▸ List.mem_cons_self)
    refine ih (h.request quiet numbered hdrive hclock) hdrives fun time htime => ?_
    rw [e.retention_request request]
    exact clock time (List.mem_cons_of_mem _ htime)

end OnSchedule

/-- Texts that were handed over are on schedule before anything is driven. -/
theorem Deferred.onSchedule {texts : List String} (h : e.Deferred config g texts)
    (stocked : e.Stocked config.outcomeCapacity) :
    e.OnSchedule config g e.queue.operations ∧
      e.queue.operations.map Operation.sequence =
        List.range e.queue.operations.length := by
  have hlength : e.queue.nextSequence = e.queue.operations.length := by
    have hnumbers := congrArg List.length h.numbered
    rw [List.length_map, List.length_range] at hnumbers
    exact hnumbers.symm
  refine ⟨⟨h.drivable, h.accounts, stocked, h.configured, h.graph, hlength, ⟨0, ?_⟩,
    h.waits, ?_, ?_, ?_⟩, hlength ▸ h.numbered⟩
  · rw [Nat.zero_mul, List.drop_zero]
  · simp [h.batches]
  · simp [h.delivered]
  · have hnone : e.outcomes = [] := by
      rw [stocked.outcomes, h.delivered]
      exact List.drop_nil
    simp [hnone]

theorem IsVerdict.eq {size : Nat}
    (numbered : ops.map Operation.sequence = List.range ops.length) {o o' : Outcome}
    (h : IsVerdict size g ops o) (h' : IsVerdict size g ops o')
    (same : o.sequence = o'.sequence) : o = o' := by
  obtain ⟨op, hop, rfl⟩ := h
  obtain ⟨op', hop', rfl⟩ := h'
  rw [Operation.sequence_verdict, Operation.sequence_verdict] at same
  have hdistinct : (ops.map Operation.sequence).Nodup := numbered ▸ List.nodup_range
  rw [List.inj_on_of_nodup_map hdistinct hop hop' same]

theorem takeOutcome_of_mem {sequence : Nat}
    (stored : ∃ o ∈ e.outcomes, o.sequence = sequence) :
    ∃ o ∈ e.outcomes, o.sequence = sequence ∧ (e.takeOutcome sequence).1 = some o := by
  obtain ⟨o, ho, hsequence⟩ := stored
  unfold takeOutcome Outcomes.take?
  cases hfound : e.outcomes.find? fun o => o.sequence == sequence with
  | none => exact absurd (beq_iff_eq.mpr hsequence) (List.find?_eq_none.mp hfound o ho)
  | some found =>
    exact ⟨found, List.mem_of_find?_eq_some hfound,
      beq_iff_eq.mp (List.find?_some hfound :), rfl⟩

/-- What a schedule leaves that drains the engine: every number has ended,
with its verdict. -/
theorem OnSchedule.drained (h : e.OnSchedule config g ops)
    (numbered : ops.map Operation.sequence = List.range ops.length)
    (none : e.remaining = 0) :
    e.completed.Perm (List.range ops.length) ∧
      (e.delivered.map Delivery.outcome).Perm
        (ops.map fun op =>
          op.verdict g (Queue.companions config.batchSize ops op)) := by
  have hall := h.accounts.completed_of_remaining none
  rw [h.next] at hall
  refine ⟨hall, Outcomes.perm_of_verdicts numbered (fun op => op.sequence_verdict _ _)
    (fun o ho => ?_) ?_⟩
  · obtain ⟨d, hd, rfl⟩ := List.mem_map.mp ho
    exact h.delivered d hd
  · rw [List.map_map]
    exact hall

/-- An engine that was made, accepted texts and was driven is on schedule. -/
theorem OnSchedule.ofTexts {names : Names} {start : Engine} (quiet : g.IsQuiet)
    (made : create config names g = .ok start) (texts : List String)
    {schedule : List Request} (drives : ∀ request ∈ schedule, request.IsDrive)
    (clock : ∀ time, .call (.tick time) ∈ schedule →
      (Calendar.instant? (time - config.retentionMs)).isSome = true)
    (waiting : (Run.acceptAll start texts).2.queue.operations = ops) :
    ((Run.acceptAll start texts).2.requestAll schedule).OnSchedule config g ops ∧
      ops.map Operation.sequence = List.range ops.length ∧
      ops.length = (Run.accepted texts).length := by
  have hdeferred := (Deferred.create made).acceptAll texts
  have hstart : start.Stocked config.outcomeCapacity := by
    obtain ⟨-, rfl⟩ := create_eq_ok_iff.mp made
    exact .fresh config names g
  obtain ⟨hwaiting, hnumbered⟩ :=
    hdeferred.onSchedule (Run.lasting_acceptAll (lasting_stocked _) texts hstart)
  rw [← hdeferred.retention] at clock
  refine ⟨?_, ?_, ?_⟩
  · rw [← waiting]
    exact hwaiting.requestAll quiet hnumbered schedule drives clock
  · rw [← waiting]
    exact hnumbered
  · rw [← waiting, ← hwaiting.next]
    exact hdeferred.next

/-- Outcomes do not depend on the schedule.  Two engines over one graph that
nothing disturbs accept the same texts, and then batches are formed and
advanced, those of any indexes, by whichever workers and in any order, while
time passes, until no operation remains.  Then every number has ended once in
both, with the same status, reason, rows and steps, and whatever both stores
have room for is the same outcome.  The engines may differ in the stride, the
room of the registry and everything else in their configurations; but if the
queries have scans of different kinds, the batch size has to be the same.  Only
the clocks of the ledgers have to stay in reach of their retention. -/
theorem outcomes_of_any_schedule {config config' : Config} {names names' : Names}
    {graph : Graph} {start start' : Engine} (quiet : graph.IsQuiet)
    (made : create config names graph = .ok start)
    (made' : create config' names' graph = .ok start') (texts : List String)
    (alike : config.batchSize = config'.batchSize ∨ ∃ kind, ∀ text ∈ texts, ∀ plan,
      Plan.ofText text = .ok plan → plan.kind = kind)
    {schedule schedule' : List Request} (drives : ∀ request ∈ schedule, request.IsDrive)
    (drives' : ∀ request ∈ schedule', request.IsDrive)
    (clock : ∀ time, .call (.tick time) ∈ schedule →
      (Calendar.instant? (time - config.retentionMs)).isSome = true)
    (clock' : ∀ time, .call (.tick time) ∈ schedule' →
      (Calendar.instant? (time - config'.retentionMs)).isSome = true)
    (drained : ((Run.acceptAll start texts).2.requestAll schedule).remaining = 0)
    (drained' : ((Run.acceptAll start' texts).2.requestAll schedule').remaining = 0) :
    let last := (Run.acceptAll start texts).2.requestAll schedule
    let last' := (Run.acceptAll start' texts).2.requestAll schedule'
    let count := (Run.accepted texts).length
    last.completed.Perm (List.range count) ∧ last'.completed.Perm (List.range count) ∧
      (last.delivered.map Delivery.outcome).Perm
        (last'.delivered.map Delivery.outcome) ∧
      ∀ n < count, count ≤ n + config.outcomeCapacity →
        count ≤ n + config'.outcomeCapacity →
        ∃ o, o.sequence = n ∧ (last.takeOutcome n).1 = some o ∧
        (last'.takeOutcome n).1 = some o := by
  intro last last' count
  -- what waits before the drives is the same in both
  have hsame : (Run.acceptAll start' texts).2.queue.operations =
      (Run.acceptAll start texts).2.queue.operations := by
    obtain ⟨-, rfl⟩ := create_eq_ok_iff.mp made
    obtain ⟨-, rfl⟩ := create_eq_ok_iff.mp made'
    have hfresh : (fresh config' names' graph).queue =
      (fresh config names graph).queue := rfl
    exact congrArg Queue.operations (acceptAll_congr hfresh rfl texts).1
  have hplanned := ((Deferred.create made).acceptAll texts).planned
  obtain ⟨hlast, hnumbered, hcount⟩ :=
    OnSchedule.ofTexts quiet made texts drives clock rfl
  obtain ⟨hlast', -, -⟩ := OnSchedule.ofTexts quiet made' texts drives' clock' hsame
  generalize (Run.acceptAll start texts).2.queue.operations = ops
    at hplanned hlast hlast' hnumbered hcount
  obtain ⟨hall, houtcomes⟩ := hlast.drained hnumbered drained
  obtain ⟨hall', houtcomes'⟩ := hlast'.drained hnumbered drained'
  have hverdict : ∀ op : Operation,
    op.verdict graph (Queue.companions config'.batchSize ops op) =
      op.verdict graph (Queue.companions config.batchSize ops op) := by
    rcases alike with hsize | ⟨kind, hkind⟩
    · simp [hsize]
    · have hkinds : ∀ op ∈ ops, op.pipeline.kind = kind := by
        intro op hop
        obtain ⟨text, htext, plan, hplan, hop⟩ := hplanned op hop
        exact hop.trans (hkind text htext plan hplan)
      simp [Operation.verdict_of_kinds hkinds]
  simp only [hverdict] at houtcomes'
  rw [hcount] at hall hall'
  refine ⟨hall, hall', houtcomes.trans houtcomes'.symm, fun n hn hroom hroom' => ?_⟩
  obtain ⟨o, ho, hsequence, htaken⟩ :=
    takeOutcome_of_mem ((hlast.stocked.exists_outcome_iff hall).mpr ⟨hn, hroom⟩)
  obtain ⟨o', ho', hsequence', htaken'⟩ :=
    takeOutcome_of_mem ((hlast'.stocked.exists_outcome_iff hall').mpr ⟨hn, hroom'⟩)
  obtain ⟨op, hop, hown⟩ := hlast'.outcomes o' ho'
  have hequal : o = o' :=
    (hlast.outcomes o ho).eq hnumbered ⟨op, hop, hown.trans (hverdict op)⟩
    (hsequence.trans hsequence'.symm)
  exact ⟨o, hsequence, htaken, hequal ▸ htaken'⟩

/-- Queries of two kinds, the first two of which are not grouped in pairs. -/
def mixedTexts : List String :=
  ["MATCH (n) RETURN n", "MATCH (n:Person) RETURN n", "MATCH (n:Person) RETURN n.age",
    "MATCH (n:Person) RETURN n LIMIT 1", "MATCH (n) RETURN n.age"]

/-- A configuration by which only one batch can be live. -/
def narrowConfig : Config := { batchSize := 2, stride := 1, registryCapacity := 1 }

/-- A configuration by which batches keep their distance. -/
def wideConfig : Config :=
  { batchSize := 2, stride := 5, registryCapacity := 8, outcomeCapacity := 3 }

/-- A schedule that drives one batch after the other, round by round. -/
def oneByOne : List Request :=
  [.call .formBatch, .call .formBatch, .call .formBatch, .advanceIndex 7] ++
    List.replicate 3 (.advanceIndex 0) ++ [.call .formBatch, .call (.tick 1000)] ++
    List.replicate 4 (.advanceIndex 1)

/-- A schedule that forms all batches first, and tries the later one too soon. -/
def allAtOnce : List Request :=
  [.call .formBatch, .call .formBatch, .call .formBatch, .advanceIndex 1,
    .call .advanceNext, .call (.wait 20), .advanceIndex 1]

/-- Both schedules give the queries the same outcomes. -/
theorem outcomes_of_any_schedule_mixed : ∃ start start',
    create narrowConfig default personsAndRobot = .ok start ∧
      create wideConfig default personsAndRobot = .ok start' ∧
      let last := (Run.acceptAll start mixedTexts).2.requestAll oneByOne
      let last' := (Run.acceptAll start' mixedTexts).2.requestAll allAtOnce
      last.remaining = 0 ∧ last'.remaining = 0 ∧ last.completed.Perm (List.range 5) ∧
        (last.delivered.map Delivery.outcome).Perm
          (last'.delivered.map Delivery.outcome) := by
  have hmade : create narrowConfig default personsAndRobot =
      .ok (fresh narrowConfig default personsAndRobot) :=
    create_eq_ok_iff.mpr ⟨Config.validate_of_isOk (by decide +kernel), rfl⟩
  have hmade' : create wideConfig default personsAndRobot =
      .ok (fresh wideConfig default personsAndRobot) :=
    create_eq_ok_iff.mpr ⟨Config.validate_of_isOk (by decide +kernel), rfl⟩
  have hdrained :
    ((Run.acceptAll (fresh narrowConfig default personsAndRobot)
      mixedTexts).2.requestAll
      oneByOne).remaining = 0 := by decide +kernel
  have hdrained' :
    ((Run.acceptAll (fresh wideConfig default personsAndRobot) mixedTexts).2.requestAll
      allAtOnce).remaining = 0 := by decide +kernel
  have hcount : (Run.accepted mixedTexts).length = 5 := by decide +kernel
  have hdrives : (∀ request ∈ oneByOne, request.IsDrive) ∧ ∀ request ∈ allAtOnce,
      request.IsDrive := by
    simp [oneByOne, allAtOnce, Request.IsDrive]
  have hclock : ∀ time, .call (.tick time) ∈ oneByOne →
      (Calendar.instant? (time - narrowConfig.retentionMs)).isSome = true := by
    intro time htime
    obtain rfl : time = 1000 := by simpa [oneByOne] using htime
    decide
  have hclock' : ∀ time, .call (.tick time) ∈ allAtOnce →
      (Calendar.instant? (time - wideConfig.retentionMs)).isSome = true := by
    simp [allAtOnce]
  obtain ⟨hall, -, houtcomes, -⟩ :=
    outcomes_of_any_schedule (Graph.isQuiet_ofNodes _) hmade hmade' mixedTexts
    (.inl rfl) hdrives.1 hdrives.2 hclock hclock' hdrained hdrained'
  rw [hcount] at hall
  exact ⟨_, _, hmade, hmade', hdrained, hdrained', hall, houtcomes⟩

end Engine

end Lockstep
