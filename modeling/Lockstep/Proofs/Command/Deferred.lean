import Lockstep.Proofs.Command.Accepting
import Lockstep.Proofs.Engine.Drivable
set_option autoImplicit false

/-!
# Before anything is driven

After texts were handed to a new engine, those that could be planned wait in the
queue under the numbers from zero on, each over a scan of its own at the start
of the graph, and nothing else has happened.  What waits then, and over which
scans, hangs on the graph and the texts alone: not on the configuration of the
engine, and not on its names.
-/

namespace Lockstep

theorem Operation.Waits.openCursor {s : Scans} {op : Operation} (h : op.Waits s)
    (fresh : op.isStarted = false) (source : Source) :
    op.Waits (s.openCursor source).2 := by
  have hopen := (h.start fresh).1.isOpen
  exact h.congr (Scans.isOpen_openCursor hopen source)
    (Scans.cursor_openCursor hopen source)

/-- An operation of a plan over the graph that was just opened can wait. -/
theorem Operation.waits_openScan {text : String} {plan : Plan}
    (planned : Plan.ofText text = .ok plan) (s : Scans) (sequence : Nat)
    (query : String) :
    Waits (plan.openScan s).2 ⟨sequence, query, (plan.openScan s).1⟩ := by
  obtain ⟨q, -, hq⟩ := Plan.ofText_eq_ok planned
  obtain ⟨hsource, hsound, -⟩ := MatchQuery.plan_of_ok hq
  refine ⟨hsound, fun _ => ⟨unstarted_openScan plan s sequence query, ?_⟩⟩
  have hcursor : ((plan.openScan s).2.cursor s.cursors.size) =
      { source := plan.source } :=
    s.cursor_openCursor_self plan.source
  exact (congrArg Cursor.source hcursor).trans hsource

namespace Engine

variable {config : Config} {g : Graph} {texts : List String} {e : Engine}

/-- Texts were handed to a new engine over a graph, and nothing else
has happened to it. -/
structure Deferred (config : Config) (g : Graph) (texts : List String) (e : Engine) :
    Prop where
  drivable : e.Drivable
  accounts : e.Accounts
  configured : e.config = config
  retention : e.ledger.retention = config.retentionMs
  graph : e.scans.graph = g
  next : e.queue.nextSequence = (Run.accepted texts).length
  numbered : e.queue.operations.map Operation.sequence = List.range e.queue.nextSequence
  waits : ∀ op ∈ e.queue.operations, op.isStarted = false ∧ op.Waits e.scans
  planned : ∀ op ∈ e.queue.operations,
    ∃ text ∈ texts, ∃ plan, Plan.ofText text = .ok plan ∧ op.pipeline.kind = plan.kind
  batches : e.registry.batches = []
  delivered : e.delivered = []
  outcomes : e.outcomes = []

namespace Deferred

theorem create {names : Names} (made : Engine.create config names g = .ok e) :
    e.Deferred config g [] := by
  obtain ⟨hdrivable, hretention⟩ := Drivable.create made
  obtain ⟨haccounts, -⟩ := accounts_create made
  obtain ⟨-, rfl⟩ := create_eq_ok_iff.mp made
  exact ⟨hdrivable, haccounts, rfl, hretention, rfl, rfl, rfl, List.forall_mem_nil _,
    List.forall_mem_nil _, rfl, rfl, rfl⟩

theorem refused (h : e.Deferred config g texts) {text : String} {f : Failure}
    (planned : Plan.ofText text = .error f) :
    e.Deferred config g (texts ++ [text]) := by
  refine ⟨h.drivable, h.accounts, h.configured, h.retention, h.graph, ?_, h.numbered,
    h.waits, ?_, h.batches, h.delivered, h.outcomes⟩
  · rw [Run.accepted_append, Run.accepted_of_error planned, List.append_nil]
    exact h.next
  · intro op hop
    obtain ⟨text, htext, hplan⟩ := h.planned op hop
    exact ⟨text, List.mem_append_left _ htext, hplan⟩

/-- A text that is accepted waits behind those before it. -/
theorem accepted (h : e.Deferred config g texts) {text : String} {plan : Plan}
    (planned : Plan.ofText text = .ok plan) :
    (e.execute Plan.ofText text).2.Deferred config g (texts ++ [text]) := by
  obtain ⟨-, hrest⟩ := e.execute_of_ok planned
  have hdrivable := h.drivable.accepted hrest
  have haccounts := (h.accounts.accepted hrest).accounts
  generalize (e.execute Plan.ofText text).2 = e' at hrest hdrivable haccounts
  have hqueue : e'.queue.operations =
      e.queue.operations ++ [⟨e.queue.nextSequence, text, (plan.openScan e.scans).1⟩] :=
    congrArg Queue.operations hrest.queue
  have hnext : e'.queue.nextSequence = e.queue.nextSequence + 1 :=
    congrArg Queue.nextSequence hrest.queue
  refine ⟨hdrivable, haccounts, hrest.config.trans h.configured,
    hrest.retention.trans h.retention, ?_, ?_, ?_, ?_, ?_, ?_, ?_, ?_⟩
  · rw [hrest.scans]
    exact h.graph
  · rw [hnext, h.next, Run.accepted_append, Run.accepted_of_ok planned,
      List.length_append, List.length_singleton]
  · rw [hqueue, hnext, List.map_append, h.numbered, List.range_succ]
    rfl
  · rw [hqueue, hrest.scans]
    refine List.forall_mem_append.mpr
      ⟨fun op hop => ?_, List.forall_mem_singleton.mpr ⟨rfl, ?_⟩⟩
    · obtain ⟨hfresh, hwaits⟩ := h.waits op hop
      exact ⟨hfresh, hwaits.openCursor hfresh plan.source⟩
    · exact Operation.waits_openScan planned e.scans e.queue.nextSequence text
  · rw [hqueue]
    refine List.forall_mem_append.mpr
      ⟨fun op hop => ?_, List.forall_mem_singleton.mpr ?_⟩
    · obtain ⟨text, htext, hplan⟩ := h.planned op hop
      exact ⟨text, List.mem_append_left _ htext, hplan⟩
    · exact ⟨text, by simp, plan, planned, rfl⟩
  · rw [hrest.registry]
    exact h.batches
  · rw [hrest.delivered, List.reverse_nil, List.nil_append]
    exact h.delivered
  · refine List.eq_nil_iff_forall_not_mem.mpr fun o ho => ?_
    rcases hrest.outcomes o ho with hold | ⟨d, hd, -⟩
    · rw [h.outcomes] at hold
      cases hold
    · cases hd

/-- Any number of texts can be handed over. -/
theorem acceptAll (h : e.Deferred config g texts) (more : List String) :
    (Run.acceptAll e more).2.Deferred config g (texts ++ more) := by
  induction more generalizing e texts with
  | nil =>
    rw [List.append_nil]
    exact h
  | cons text more ih =>
    have hfirst : (e.execute Plan.ofText text).2.Deferred config g
        (texts ++ [text]) := by
      cases hplan : Plan.ofText text with
      | error f =>
        rw [e.execute_of_error hplan]
        exact h.refused hplan
      | ok plan => exact h.accepted hplan
    rw [List.append_cons]
    exact ih hfirst

end Deferred

/-- What one text adds to the queue and to the scans hangs on these alone. -/
theorem execute_congr {e e' : Engine} (queue : e'.queue = e.queue)
    (scans : e'.scans = e.scans) (text : String) :
    (e'.execute Plan.ofText text).2.queue = (e.execute Plan.ofText text).2.queue ∧
      (e'.execute Plan.ofText text).2.scans = (e.execute Plan.ofText text).2.scans := by
  cases hplan : Plan.ofText text with
  | error f =>
    rw [e.execute_of_error hplan, e'.execute_of_error hplan]
    exact ⟨queue, scans⟩
  | ok plan =>
    have hrest := (e.execute_of_ok hplan).2
    have hrest' := (e'.execute_of_ok hplan).2
    rw [hrest.queue, hrest.scans, hrest'.queue, hrest'.scans, queue, scans]
    exact ⟨rfl, rfl⟩

theorem acceptAll_congr {e e' : Engine} (queue : e'.queue = e.queue)
    (scans : e'.scans = e.scans) (texts : List String) :
    (Run.acceptAll e' texts).2.queue = (Run.acceptAll e texts).2.queue ∧
      (Run.acceptAll e' texts).2.scans = (Run.acceptAll e texts).2.scans := by
  induction texts generalizing e e' with
  | nil => exact ⟨queue, scans⟩
  | cons text texts ih =>
    obtain ⟨hqueue, hscans⟩ := execute_congr queue scans text
    exact ih hqueue hscans

end Engine

end Lockstep
