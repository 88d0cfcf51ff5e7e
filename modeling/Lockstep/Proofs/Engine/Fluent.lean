import Lockstep.Proofs.Engine.Faithful
import Lockstep.Proofs.Engine.Registered
import Lockstep.Proofs.Scheduler.Oldest
import Mathlib.Algebra.Order.BigOperators.Group.List
import Mathlib.Algebra.Order.Group.Nat
set_option autoImplicit false

/-!
# Engines that nothing disturbs

While the graph is quiet and no plan has faults, every group of operations has a
quiet scan before its end, and no batch waits for a retry.  The work that is
left can be counted in pulls: forming a batch puts some scans aside, and
advancing the oldest batch pulls its scan.
-/

namespace Lockstep

namespace Scans

variable {id : CursorId} {s s' : Scans}

/-- How often the scan of a group is still pulled at most: for each row to come,
and for the end. -/
def toPull (s : Scans) : List Operation → Nat
  | [] => 0
  | op :: _ => (s.upcoming op.pipeline.cursor).length + 1

theorem toPull_of_cursor {ops : List Operation} (some : ops ≠ [])
    (cursor : ∀ op ∈ ops, op.pipeline.cursor = id) :
    s.toPull ops = (s.upcoming id).length + 1 := by
  cases ops with
  | nil => exact absurd rfl some
  | cons op ops =>
    rw [toPull, cursor op List.mem_cons_self]

theorem OnlyMoves.toPull (moves : OnlyMoves id s s') {ops : List Operation}
    (hne : ∀ op ∈ ops, op.pipeline.cursor ≠ id) : s'.toPull ops = s.toPull ops := by
  cases ops with
  | nil => rfl
  | cons op ops =>
    rw [Scans.toPull, Scans.toPull, moves.upcoming (hne op List.mem_cons_self)]

end Scans

theorem Batch.Runs.openCursor {id : CursorId} {s : Scans} {ops : List Operation}
    (h : Runs id s ops) (source : Source) : Runs id (s.openCursor source).2 ops := by
  have hopen := h.quiet.isOpen
  have hcursor := Scans.cursor_openCursor hopen source
  refine ⟨⟨Scans.isOpen_openCursor hopen source, ?_⟩, ?_, h.steady⟩
  · rw [hcursor]
    exact h.quiet.cursor
  · rw [hcursor]
    exact h.unexhausted

/-- What headway has left of a batch is not disturbed, and its scan is pulled
less often from now on. -/
theorem Batch.Headway.left {id : CursorId} {rounds : Nat} {b : Batch} {s : Scans}
    {a : Advance} (h : Headway id rounds b s a) (some : 0 < rounds) :
    (∀ b' ∈ a.left, b'.retryAt = b.retryAt ∧
      ∀ op ∈ b'.members, Runs op.pipeline.cursor a.scans b'.members) ∧
      ((a.left.map Batch.members).map a.scans.toPull).sum <
        (s.upcoming id).length + 1 := by
  unfold Advance.left
  split
  · exact ⟨List.forall_mem_nil _, Nat.succ_pos _⟩
  · rename_i hsome
    obtain ⟨hruns, hshorter⟩ := h.onward.resolve_left hsome
    have hcursor : ∀ op ∈ a.batch.members, op.pipeline.cursor = id := fun op hop =>
      (hruns.steady op hop).cursor
    refine ⟨List.forall_mem_singleton.mpr ⟨h.retryAt, fun op hop => ?_⟩, ?_⟩
    · rw [hcursor op hop]
      exact hruns
    · rw [List.map_singleton, List.map_singleton, List.sum_singleton,
        Scans.toPull_of_cursor hsome hcursor]
      omega

theorem Operation.Steady.refed {id : CursorId} {op op' : Operation}
    (refed : Batch.Refed op op') (sound : Link.IsSound op.pipeline.links)
    (cursor : op'.pipeline.cursor = id) : op'.Steady id := by
  obtain ⟨_, _, rfl⟩ := refed
  exact ⟨cursor, sound⟩

theorem Queue.drainBatch_ne_nil {q : Queue} {max : Nat} (some : q.operations ≠ [])
    (hmax : 0 < max) :
    (q.drainBatch max).1 ≠ [] := by
  obtain ⟨front, rest, hops⟩ := List.exists_cons_of_ne_nil some
  obtain ⟨max, rfl⟩ := Nat.exists_eq_add_one_of_ne_zero (Nat.ne_of_gt hmax)
  unfold drainBatch batchSize
  rw [hops]
  cases hstarted : front.isStarted with
  | true => simp [hstarted]
  | false => simp [hstarted]

namespace Engine

variable {ex : Expectation} {nodes : Array Node} {e e' : Engine}

/-- Nothing disturbs the operations of the engine: the graph is quiet, every
group has a quiet scan before its end, and no batch waits for a retry. -/
structure Fluent (e : Engine) : Prop where
  quiet : e.scans.graph.IsQuiet
  runs : ∀ ops ∈ e.groups, ∀ op ∈ ops, Batch.Runs op.pipeline.cursor e.scans ops
  due : ∀ b ∈ e.registry.batches, b.retryAt = none

/-- The work that is left: the pulls of every group, and one more for each
operation that waits. -/
def load (e : Engine) : Nat :=
  (e.groups.map e.scans.toPull).sum + e.queue.operations.length

theorem Fluent.receives {taken : List Delivery} (h : e.Fluent)
    (rest : Receives taken e e') :
    e'.Fluent ∧ e'.load = e.load := by
  have hgroups : e'.groups = e.groups := by
    unfold groups
    rw [rest.queue, rest.registry]
  refine ⟨⟨?_, ?_, ?_⟩, ?_⟩
  · rw [rest.scans]
    exact h.quiet
  · rw [hgroups, rest.scans]
    exact h.runs
  · rw [rest.registry]
    exact h.due
  · unfold load
    rw [hgroups, rest.scans, rest.queue]

/-- A query over the graph that is accepted is not disturbed either. -/
theorem Fluent.accepted (h : e.Fluent) {query : String} {plan : Plan}
    (source : plan.source = .graph plan.kind 0) (sound : Link.IsSound plan.links) :
    Fluent { e with
      queue := (e.queue.enqueue query (plan.openScan e.scans).1).2
      scans := (plan.openScan e.scans).2 } := by
  let op : Operation := ⟨e.queue.nextSequence, query, (plan.openScan e.scans).1⟩
  let s := (plan.openScan e.scans).2
  have hcursor : s.cursor op.pipeline.cursor = { source := plan.source } :=
    e.scans.cursor_openCursor_self plan.source
  have hnew : Batch.Runs op.pipeline.cursor s [op] := by
    refine ⟨⟨e.scans.isOpen_openCursor_self plan.source, ?_⟩, ?_,
      List.forall_mem_singleton.mpr ⟨rfl, sound⟩⟩
    · rw [hcursor, source]
      exact ⟨rfl, h.quiet⟩
    · rw [hcursor]
      rfl
  refine ⟨h.quiet, fun ops hops other hother => ?_, h.due⟩
  rcases List.mem_cons.mp ((e.groups_accepted query plan).subset hops) with rfl | hold
  · rw [List.mem_singleton.mp hother]
    exact hnew
  · exact (h.runs ops hold other hother).openCursor plan.source

/-! ## Forming batches -/

theorem load_front (e : Engine) :
    e.load = ((e.front.1.map ([·])).map e.scans.toPull).sum + e.front.1.length +
      ({ e with queue := e.front.2 } : Engine).load := by
  have hlength : e.queue.operations.length =
      e.front.1.length + e.front.2.operations.length := by
    rw [← List.length_append]
    exact congrArg List.length (e.queue.drainBatch_append _).symm
  unfold load
  rw [groups_front, List.map_append, List.sum_append, hlength]
  unfold groups
  dsimp only
  omega

theorem Fluent.dropFront (h : e.Fluent) (some : e.front.1 ≠ []) :
    Fluent { e with queue := e.front.2 } ∧
      ({ e with queue := e.front.2 } : Engine).load < e.load := by
  have hruns := h.runs
  rw [groups_front] at hruns
  refine ⟨⟨h.quiet, (List.forall_mem_append.mp hruns).2, h.due⟩, ?_⟩
  have hpos := List.length_pos_of_ne_nil some
  rw [e.load_front]
  omega

/-- A batch that was formed is not disturbed: it is fed by the scan of one
of its operations. -/
theorem Fluent.runs_formed (h : e.Fluent) (faithful : e.Faithful ex nodes)
    {name : String} {b : Batch} (form : Batch.form name e.front.1 e.scans = .ok b) :
    ∃ leader ∈ e.front.1, Batch.Runs leader.pipeline.cursor e.scans b.members := by
  obtain ⟨leader, hleader, hstep⟩ := faithful.inStep_formed form
  have hgroup : [leader] ∈ e.groups := by
    rw [groups_front]
    exact List.mem_append_left _ (List.mem_map_of_mem hleader)
  have hleads := h.runs [leader] hgroup leader (List.mem_singleton_self leader)
  refine ⟨leader, hleader, hleads.quiet, hleads.unexhausted, fun op' hop' => ?_⟩
  obtain ⟨op, hop, hrefed⟩ := Batch.exists_refed (Batch.refed_of_form_ok form).1 hop'
  exact .refed hrefed (faithful.waits op (e.mem_front (.inl hop))).sound
    (hstep op' hop').1

/-- There is less to do with a batch that was formed, since one scan feeds all of it. -/
theorem Fluent.formed (h : e.Fluent) (faithful : e.Faithful ex nodes) {name : String}
    {b : Batch} {index : Nat} {r : Registry}
    (form : Batch.form name e.front.1 e.scans = .ok b)
    (insert : e.registry.insert? b = some (index, r)) :
    Fluent { e with queue := e.front.2, registry := r } ∧
      ({ e with queue := e.front.2, registry := r } : Engine).load < e.load := by
  obtain ⟨leader, hleader, hnew⟩ := h.runs_formed faithful form
  have hcursor : ∀ op ∈ b.members, op.pipeline.cursor = leader.pipeline.cursor :=
    fun op hop => (hnew.steady op hop).cursor
  obtain ⟨-, hbatches⟩ := Registry.batches_insert? faithful.sound insert
  have hgroups : ({ e with queue := e.front.2, registry := r } : Engine).groups =
      (e.front.2.operations.map ([·]) ++ e.registry.batches.map Batch.members) ++
          [b.members] := by
    unfold groups
    dsimp only
    rw [hbatches, List.map_append, List.append_assoc]
    rfl
  refine ⟨⟨h.quiet, ?_, ?_⟩, ?_⟩
  · have hothers := h.runs
    rw [groups_front] at hothers
    rw [hgroups]
    refine List.forall_mem_append.mpr
      ⟨(List.forall_mem_append.mp hothers).2,
        List.forall_mem_singleton.mpr fun op hop => ?_⟩
    rw [hcursor op hop]
    exact hnew
  · dsimp only
    rw [hbatches]
    exact List.forall_mem_append.mpr
      ⟨h.due, List.forall_mem_singleton.mpr (Batch.unstarted_of_form form).2⟩
  · have hpull : e.scans.toPull b.members = e.scans.toPull [leader] :=
      Scans.toPull_of_cursor (Batch.members_ne_nil_of_form form) hcursor
    have hle := List.le_sum_of_mem
      (List.mem_map_of_mem (f := e.scans.toPull)
        (List.mem_map_of_mem (f := ([·])) hleader))
    have hpos := List.length_pos_of_mem hleader
    have hload : ({ e with queue := e.front.2, registry := r } : Engine).load =
        ({ e with queue := e.front.2 } : Engine).load + e.scans.toPull b.members := by
      unfold load
      rw [hgroups, List.map_append, List.sum_append]
      unfold groups
      dsimp only
      rw [List.map_singleton, List.sum_singleton]
      omega
    rw [hload, e.load_front, hpull]
    omega

/-! ## Advancing the oldest batch -/

/-- Nothing disturbs the engine while its oldest batch is advanced, and
there is less to do. -/
theorem Fluent.onward (h : e.Fluent) (faithful : e.Faithful ex nodes)
    (registered : e.Registered) (stride : 0 < e.config.stride) {b : Batch}
    {others : List Batch} (live : e.registry.batches = b :: others) {turn : Turn}
    (onward : Scheduler.Onward e.scheduler b others e.scans turn) :
    Fluent { e with registry := turn.registry, scans := turn.scans } ∧
      ({ e with registry := turn.registry, scans := turn.scans } : Engine).load < e.load := by
  have hsome : b.members ≠ [] := registered.peopled b (live ▸ List.mem_cons_self)
  obtain ⟨first, hfirst⟩ := List.exists_mem_of_ne_nil _ hsome
  let rest := e.queue.operations.map (fun op => [op]) ++ others.map Batch.members
  have hgroups : e.groups.Perm (b.members :: rest) := by
    unfold groups
    rw [live]
    exact List.perm_middle
  obtain ⟨hown, hrest⟩ := List.forall_mem_cons.mp fun ops hops =>
    h.runs ops (hgroups.mem_iff.mpr hops)
  have hruns := hown first hfirst
  -- no other group is fed by the cursor of the batch
  have hfeeds : e.scans.Feeds ex ([b.members] ++ rest) := faithful.feeds.perm hgroups
  have happart : ∀ ops ∈ rest, ∀ op ∈ ops, op.pipeline.cursor ≠ first.pipeline.cursor :=
    hfeeds.ne_of_mem (List.mem_singleton_self _) hfirst
  obtain ⟨-, -, hscans, -, hbatches⟩ := onward
  have hmade := Batch.headway_advance hruns e.scheduler.maxRetries e.scheduler.stride
  generalize b.advance none e.scheduler.maxRetries e.scheduler.stride e.scans = a
    at hscans hbatches hmade
  rw [hscans]
  obtain ⟨hleft, hless⟩ := hmade.left stride
  have hnew :
    ({ e with registry := turn.registry, scans := a.scans } : Engine).groups.Perm
      (a.left.map Batch.members ++ rest) := by
    unfold groups
    dsimp only
    rw [hbatches, List.map_append]
    exact List.perm_append_comm_assoc _ _ _
  refine ⟨⟨hmade.graph ▸ h.quiet, ?_, ?_⟩, ?_⟩
  · intro ops hops op hop
    rcases List.mem_append.mp (hnew.mem_iff.mp hops) with hops | hops
    · obtain ⟨b', hb', rfl⟩ := List.mem_map.mp hops
      exact (hleft b' hb').2 op hop
    · exact (hrest ops hops op hop).frame hmade.moves hmade.graph
        (happart ops hops op hop)
  · have hdue := h.due
    rw [live] at hdue
    obtain ⟨hb, hothers⟩ := List.forall_mem_cons.mp hdue
    dsimp only
    rw [hbatches]
    exact List.forall_mem_append.mpr ⟨fun b' hb' => (hleft b' hb').1.trans hb, hothers⟩
  · have hsame : (rest.map a.scans.toPull).sum = (rest.map e.scans.toPull).sum :=
      congrArg List.sum
        (List.map_congr_left fun ops hops => hmade.moves.toPull (happart ops hops))
    have hpull : e.scans.toPull b.members =
        (e.scans.upcoming first.pipeline.cursor).length + 1 :=
      Scans.toPull_of_cursor hsome fun op hop => (hruns.steady op hop).cursor
    unfold load
    dsimp only
    rw [(hnew.map a.scans.toPull).sum_nat, (hgroups.map e.scans.toPull).sum_nat,
      List.map_append, List.sum_append, List.map_cons, List.sum_cons, hsame, hpull]
    omega

end Engine

end Lockstep
