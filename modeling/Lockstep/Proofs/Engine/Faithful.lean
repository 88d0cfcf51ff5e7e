import Lockstep.Proofs.Engine.Conservation
import Lockstep.Proofs.Queue.Waiting
set_option autoImplicit false

/-!
# An engine keeps every operation on course

An operation that waits is a group by itself, and so is every batch.  In
whatever order operations are stepped on their own, grouped, advanced and
abandoned, each group has a cursor of its own, and every member of it has seen
just the rows that this cursor has given.  So whatever is delivered is truthful.
-/

namespace Lockstep

/-- An outcome as completed has expected rows, an outcome as failed a prefix of them. -/
def Outcome.Truthful (ex : Expectation) (o : Outcome) : Prop :=
  ∃ expected, ex o.sequence o.query expected ∧
    (o.status = .completed → o.rows.toList = expected) ∧
    ∀ reason, o.status = .failed reason → o.rows.toList <+: expected

theorem Delivery.Truthful.outcome {ex : Expectation} {d : Delivery}
    (h : d.Truthful ex) :
    d.outcome.Truthful ex := h

/-- An advance of one group moves no other and delivers truthfully. -/
theorem Scans.Feeds.guardedAdvance {ex : Expectation} {s : Scans} {b : Batch}
    {rest : List (List Operation)} (h : Feeds ex s (b.members :: rest))
    (sch : Scheduler) (receiver : Receiver) :
    let a := sch.guardedAdvance receiver b s
    Feeds ex a.scans (a.batch.members :: rest) ∧ a.scans.graph.nodes = s.graph.nodes ∧
      (∀ others ∈ rest, ∀ op ∈ others,
        a.scans.cursor op.pipeline.cursor = s.cursor op.pipeline.cursor) ∧
      ∀ d ∈ a.deliveries, d.Truthful ex := by
  intro a
  by_cases hempty : b.members = []
  · have ha : a = ⟨.ran false, b, s, []⟩ := Scheduler.guardedAdvance_of_isEmpty hempty
    rw [ha]
    exact ⟨h, rfl, fun _ _ _ _ => rfl, List.forall_mem_nil _⟩
  · obtain ⟨op, hop⟩ := List.exists_mem_of_ne_nil _ hempty
    obtain ⟨id, hopen, hstep⟩ := h.each b.members List.mem_cons_self
    have hid := (hstep op hop).1
    obtain ⟨hkept, hmembers⟩ := sch.kept_guardedAdvance receiver hopen hstep
    have hfeeds : Feeds ex s ([b.members] ++ rest) := h
    have hown : b.members ∈ [b.members] := List.mem_singleton_self _
    refine ⟨hfeeds.regroup hkept.moves ⟨_, hown, op, hop, hid⟩ hmembers,
      hkept.moves.nodes, fun others hothers other hother => hkept.moves.others _ ?_,
      hkept.deliveries⟩
    rw [← hid]
    exact hfeeds.ne_of_mem hown hop others hothers other hother

namespace Engine

/-- The groups of an engine: each operation that waits, and each batch. -/
def groups (e : Engine) : List (List Operation) :=
  e.queue.operations.map ([·]) ++ e.registry.batches.map Batch.members

theorem groups_front (e : Engine) :
    e.groups = e.front.1.map ([·]) ++
      (e.front.2.operations.map ([·]) ++ e.registry.batches.map Batch.members) := by
  unfold groups
  rw [← e.front_append, List.map_append, List.append_assoc]

/-- The groups of an engine but for the batch of an index. -/
def groupsBut (e : Engine) (index : Nat) : List (List Operation) :=
  e.queue.operations.map ([·]) ++
    (e.registry.before index ++ e.registry.behind index).map Batch.members

theorem groups_of_get? {e : Engine} {index : Nat} {b : Batch}
    (live : e.registry.get? index = some b) :
    e.groups.Perm (b.members :: e.groupsBut index) := by
  unfold groups groupsBut
  rw [Registry.batches_of_get? live]
  exact .trans (.append_left _ (List.perm_middle.map Batch.members)) List.perm_middle

theorem groups_accepted (e : Engine) (query : String) (plan : Plan) :
    ({ e with
      queue := (e.queue.enqueue query (plan.openScan e.scans).1).2
      scans := (plan.openScan e.scans).2 } : Engine).groups.Perm
        ([⟨e.queue.nextSequence, query, (plan.openScan e.scans).1⟩] :: e.groups) := by
  have hqueue : (e.queue.enqueue query (plan.openScan e.scans).1).2.operations =
      e.queue.operations ++
        [⟨e.queue.nextSequence, query, (plan.openScan e.scans).1⟩] := rfl
  unfold groups
  dsimp only
  rw [hqueue, List.map_append, List.append_assoc]
  exact List.perm_middle

section

variable {ex : Expectation} {e : Engine}

theorem feeds_receives (h : e.scans.Feeds ex e.groups) {taken : List Delivery}
    {e' : Engine} (rest : Receives taken e e') : e'.scans.Feeds ex e'.groups := by
  unfold groups
  rw [rest.queue, rest.registry, rest.scans]
  exact h

theorem feeds_accepted (h : e.scans.Feeds ex e.groups) (query : String) (plan : Plan)
    (hstep : Batch.InStep ex e.scans.cursors.size (plan.openScan e.scans).2
      [⟨e.queue.nextSequence, query, (plan.openScan e.scans).1⟩]) :
    (plan.openScan e.scans).2.Feeds ex ({ e with
      queue := (e.queue.enqueue query (plan.openScan e.scans).1).2
      scans := (plan.openScan e.scans).2 } : Engine).groups :=
  (h.openCursor plan.source hstep).perm (e.groups_accepted query plan).symm

theorem feeds_dropQueue (h : e.scans.Feeds ex e.groups) {queue : Queue}
    (sub : queue.operations.Sublist e.queue.operations) :
    e.scans.Feeds ex ({ e with queue := queue } : Engine).groups :=
  h.sublist ((sub.map _).append_right _)

theorem feeds_formed (h : e.scans.Feeds ex e.groups) (sound : e.registry.Sound)
    {b : Batch} {index : Nat} {r : Registry}
    (insert : e.registry.insert? b = some (index, r)) {op : Operation}
    (hop : op ∈ e.front.1)
    (hstep : Batch.InStep ex op.pipeline.cursor e.scans b.members) :
    e.scans.Feeds ex
      ({ e with queue := e.front.2, registry := r } : Engine).groups := by
  obtain ⟨-, hbatches⟩ := Registry.batches_insert? sound insert
  rw [e.groups_front] at h
  have hnew := h.regroup (.refl _ _)
    ⟨[op], List.mem_map_of_mem hop, op, List.mem_singleton_self op, rfl⟩ hstep
  refine hnew.perm ?_
  unfold groups
  dsimp only
  rw [hbatches, List.map_append, ← List.append_assoc]
  exact (List.perm_append_singleton _ _).symm

theorem feeds_stepped (h : e.scans.Feeds ex e.groups) {index : Nat} {op op' : Operation}
    {queue : Queue} {s : Scans} (took : e.queue.takeAt? index = some (op, queue))
    (moves : Scans.OnlyMoves op.pipeline.cursor e.scans s)
    (hstep : Batch.InStep ex op.pipeline.cursor s [op']) :
    s.Feeds ex
      ({ e with queue := queue.reinsert index op', scans := s } : Engine).groups ∧
      s.Feeds ex ({ e with queue := queue, scans := s } : Engine).groups := by
  obtain ⟨htook, -⟩ := Queue.perm_takeAt? took
  have hgroups : e.groups.Perm ([[op]] ++
      (queue.operations.map ([·]) ++ e.registry.batches.map Batch.members)) :=
    (htook.symm.map _).append_right _
  have hnew := (h.perm hgroups).regroup moves
    ⟨[op], List.mem_singleton_self _, op, List.mem_singleton_self op, rfl⟩ hstep
  refine ⟨hnew.perm ?_, hnew.sublist (List.sublist_cons_self _ _)⟩
  exact (((queue.perm_reinsert index op').map fun op => [op]).append_right _).symm

theorem cursor_stepped (h : e.scans.Feeds ex e.groups) {index : Nat}
    {op other : Operation} {queue : Queue} {s : Scans}
    (took : e.queue.takeAt? index = some (op, queue))
    (moves : Scans.OnlyMoves op.pipeline.cursor e.scans s)
    (hother : other ∈ queue.operations) :
    s.cursor other.pipeline.cursor = e.scans.cursor other.pipeline.cursor := by
  obtain ⟨htook, -⟩ := Queue.perm_takeAt? took
  have hgroups : e.groups.Perm ([[op]] ++
      (queue.operations.map ([·]) ++ e.registry.batches.map Batch.members)) :=
    (htook.symm.map _).append_right _
  have hne := (h.perm hgroups).ne_of_mem (List.mem_singleton_self [op])
    (List.mem_singleton_self op)
  exact moves.others _ (hne [other]
    (List.mem_append_left _ (List.mem_map_of_mem hother)) other
      (List.mem_singleton_self other))

theorem feeds_resettled {index : Nat} {b : Batch} {r : Registry} {s : Scans}
    (resettled : e.registry.Resettled index b r)
    (h : s.Feeds ex (b.members :: e.groupsBut index)) :
    s.Feeds ex ({ e with registry := r, scans := s } : Engine).groups := by
  obtain ⟨-, -, left, hbatches, hleft⟩ := resettled
  have hnew : s.Feeds ex (left.map Batch.members ++ e.groupsBut index) := by
    rcases hleft with ⟨rfl, -⟩ | ⟨retryAt, rfl⟩
    · exact h.sublist (List.sublist_cons_self _ _)
    · exact h
  refine hnew.perm ?_
  unfold groups groupsBut
  dsimp only
  rw [hbatches]
  simp only [List.map_append]
  exact (List.perm_append_comm_assoc _ _ _).trans
    (.append_left _ (List.perm_append_comm_assoc _ _ _))

theorem feeds_drained (h : e.scans.Feeds ex e.groups) (sound : e.registry.Sound) :
    e.scans.Feeds ex ({ e with registry := e.registry.drain.2 } : Engine).groups := by
  obtain ⟨-, -, hbatches⟩ := Registry.batches_drain sound
  unfold groups
  dsimp only
  rw [hbatches]
  exact h.sublist ((List.nil_sublist _).append_left _)

end

/-- Every operation of the engine is on course, fed by the cursor of its group,
and what was delivered or stored is truthful. -/
structure Faithful (ex : Expectation) (nodes : Array Node) (e : Engine) : Prop where
  nodes : e.scans.graph.nodes = nodes
  sound : e.registry.Sound
  waits : ∀ op ∈ e.queue.operations, op.Waits e.scans
  feeds : e.scans.Feeds ex e.groups
  delivered : ∀ d ∈ e.delivered, d.Truthful ex
  outcomes : ∀ o ∈ e.outcomes, o.Truthful ex

namespace Faithful

variable {ex : Expectation} {nodes : Array Node} {e e' : Engine}

theorem onCourse (h : e.Faithful ex nodes) {op : Operation}
    (hop : op ∈ e.queue.operations) :
    e.scans.IsOpen op.pipeline.cursor ∧
      op.OnCourse ex (e.scans.upcoming op.pipeline.cursor) :=
  h.feeds.onCourse (List.mem_append_left _ (List.mem_map_of_mem hop))
    (List.mem_singleton_self op)

/-- Taking truthful deliveries keeps an engine faithful. -/
theorem receives {taken : List Delivery} (h : e.Faithful ex nodes)
    (rest : Receives taken e e') (htaken : ∀ d ∈ taken, d.Truthful ex) :
    e'.Faithful ex nodes where
  nodes := by
    rw [rest.scans]
    exact h.nodes
  sound := by
    rw [rest.registry]
    exact h.sound
  waits := by
    rw [rest.queue, rest.scans]
    exact h.waits
  feeds := feeds_receives h.feeds rest
  delivered := by
    rw [rest.delivered]
    exact List.forall_mem_append.mpr
      ⟨fun d hd => htaken d (List.mem_reverse.mp hd), h.delivered⟩
  outcomes := by
    intro o ho
    rcases rest.outcomes o ho with hold | ⟨d, hd, rfl⟩
    · exact h.outcomes o hold
    · exact (htaken d hd).outcome

theorem truthful_failed (h : e.Faithful ex nodes) {ops : List Operation}
    (hops : ∀ op ∈ ops, op ∈ e.queue.operations) {operations : List Operation}
    (refed : List.Forall₂ Batch.Refed ops operations) {reason : String}
    {taken : List Delivery}
    (some : taken <+: operations.map fun op => ⟨op, .failed reason⟩) :
    ∀ d ∈ taken, d.Truthful ex := by
  intro d hd
  obtain ⟨op', hop', rfl⟩ := List.mem_map.mp (some.subset hd)
  obtain ⟨op, hop, hrefed⟩ := Batch.exists_refed refed hop'
  exact Delivery.truthful_failed
    ((h.onCourse (hops op hop)).2.truthful.refed hrefed) reason

/-! ## Queues that are drained -/

theorem dropQueue (h : e.Faithful ex nodes) {queue : Queue}
    (hsub : queue.operations.Sublist e.queue.operations) :
    Faithful ex nodes { e with queue := queue } where
  nodes := h.nodes
  sound := h.sound
  waits := fun op hop => h.waits op (hsub.subset hop)
  feeds := feeds_dropQueue h.feeds hsub
  delivered := h.delivered
  outcomes := h.outcomes

/-- A formed batch is on course, fed by the cursor of one of its operations. -/
theorem inStep_formed (h : e.Faithful ex nodes) {name : String} {b : Batch}
    (form : Batch.form name e.front.1 e.scans = .ok b) :
    ∃ op ∈ e.front.1, Batch.InStep ex op.pipeline.cursor e.scans b.members := by
  have hmem : ∀ op ∈ e.front.1, op ∈ e.queue.operations := fun op hop =>
    e.mem_front (.inl hop)
  exact Batch.inStep_of_form form (e.queue.drainBatch_cases _)
    (fun op hop => h.waits op (hmem op hop))
      (fun op hop => (h.onCourse (hmem op hop)).2)

theorem formed (h : e.Faithful ex nodes) {name : String} {b : Batch} {index : Nat}
    {r : Registry} (form : Batch.form name e.front.1 e.scans = .ok b)
    (insert : e.registry.insert? b = some (index, r)) :
    Faithful ex nodes { e with queue := e.front.2, registry := r } := by
  obtain ⟨op, hop, hstep⟩ := h.inStep_formed form
  exact ⟨h.nodes, (Registry.batches_insert? h.sound insert).1,
    fun op hop => h.waits op (e.mem_front (.inr hop)),
      feeds_formed h.feeds h.sound insert hop hstep,
    h.delivered, h.outcomes⟩

/-! ## Operations that are stepped on their own -/

/-- A step leaves the operation on course, whether it is put back or not. -/
theorem stepped (h : e.Faithful ex nodes) {index : Nat} {op op' : Operation}
    {queue : Queue} {s : Scans} {result : Except Interruption StepResult}
    (took : e.queue.takeAt? index = some (op, queue))
    (step : op.step false e.scans = (result, op', s)) :
    Faithful ex nodes { e with queue := queue.reinsert index op', scans := s } ∧
      Faithful ex nodes { e with queue := queue, scans := s } ∧ op'.Truthful ex ∧
      (result = .ok .finished → op'.isFinished = true) := by
  obtain ⟨htook, -⟩ := Queue.perm_takeAt? took
  have hop : op ∈ e.queue.operations := htook.subset List.mem_cons_self
  obtain ⟨hopen, hcourse⟩ := h.onCourse hop
  obtain ⟨hstepped, hfinished⟩ := (h.waits op hop).step hopen hcourse
  rw [step] at hstepped hfinished
  obtain ⟨hreinserted, hleft⟩ := feeds_stepped h.feeds took hstepped.moves
    (List.forall_mem_singleton.mpr ⟨hstepped.cursor, hstepped.onCourse⟩)
  have hwaits : ∀ other ∈ queue.operations, other.Waits s := by
    intro other hother
    have hold : other ∈ e.queue.operations :=
      htook.subset (List.mem_cons_of_mem _ hother)
    exact (h.waits other hold).congr (hstepped.moves.isOpen (h.onCourse hold).1)
      (cursor_stepped h.feeds took hstepped.moves hother)
  have hnodes := hstepped.moves.nodes.trans h.nodes
  have hback := queue.perm_reinsert index op'
  refine ⟨⟨hnodes, h.sound, ?_, hreinserted, h.delivered, h.outcomes⟩,
    ⟨hnodes, h.sound, hwaits, hleft, h.delivered, h.outcomes⟩,
      hstepped.onCourse.truthful, hfinished⟩
  intro other hother
  rcases List.mem_cons.mp (hback.subset hother) with rfl | hother
  · refine ⟨hstepped.sound, ?_⟩
    intro fresh
    rw [hstepped.started] at fresh
    cases fresh
  · exact hwaits other hother

/-! ## Batches that are advanced -/

/-- An advance leaves the batch on course with the members that stay, and
delivers truthfully. -/
theorem advanced (h : e.Faithful ex nodes) {index : Nat} {b : Batch} {r : Registry}
    {sch : Scheduler} {receiver : Receiver} (live : e.registry.get? index = some b)
    (registry : e.registry.Resettled index
      (sch.guardedAdvance receiver b e.scans).batch r) :
    Faithful ex nodes { e with
      registry := r
      scans := (sch.guardedAdvance receiver b e.scans).scans } ∧
      ∀ d ∈ (sch.guardedAdvance receiver b e.scans).deliveries, d.Truthful ex := by
  obtain ⟨hfeeds, hnodes, hcursor, htruthful⟩ :=
    (h.feeds.perm (groups_of_get? live)).guardedAdvance sch receiver
  have hothers : ∀ op ∈ e.queue.operations, [op] ∈ e.groupsBut index := fun op hop =>
    List.mem_append_left _ (List.mem_map_of_mem hop)
  refine ⟨⟨hnodes.trans h.nodes, registry.sound, ?_, feeds_resettled registry hfeeds,
    h.delivered, h.outcomes⟩, htruthful⟩
  intro op hop
  refine (h.waits op hop).congr ?_
    (hcursor [op] (hothers op hop) op (List.mem_singleton_self op))
  exact (hfeeds.onCourse (List.mem_cons_of_mem _ (hothers op hop))
    (List.mem_singleton_self op)).1

/-! ## Operations that are abandoned -/

theorem drained (h : e.Faithful ex nodes) :
    Faithful ex nodes { e with registry := e.registry.drain.2 } := by
  obtain ⟨-, hsound, -⟩ := Registry.batches_drain h.sound
  exact ⟨h.nodes, hsound, h.waits, feeds_drained h.feeds h.sound, h.delivered, h.outcomes⟩

/-- Every move keeps an engine faithful. -/
theorem move (h : e.Faithful ex nodes) (hmove : Move e e') : e'.Faithful ex nodes := by
  cases hmove with
  | idle rest => exact h.receives rest (List.forall_mem_nil _)
  | formed form insert rest =>
    exact (h.formed form insert).receives rest (List.forall_mem_nil _)
  | refused form some all rest =>
    exact (h.dropQueue e.sublist_front).receives rest
      (h.truthful_failed (fun op hop => e.mem_front (.inl hop))
      (Batch.refed_of_form_error form) some)
  | stepped took step going unfinished rest =>
    exact (h.stepped took step).1.receives rest (List.forall_mem_nil _)
  | completed took step rest =>
    obtain ⟨-, hleft, htruthful, hfinished⟩ := h.stepped took step
    exact hleft.receives rest
      (List.forall_mem_singleton.mpr
        (Delivery.truthful_completed htruthful (hfinished rfl)))
  | failed took step rest =>
    obtain ⟨-, hleft, htruthful, -⟩ := h.stepped took step
    exact hleft.receives rest
      (List.forall_mem_singleton.mpr (Delivery.truthful_failed htruthful _))
  | advanced live registry emptied rest =>
    obtain ⟨hnew, htruthful⟩ := h.advanced live (registry h.sound)
    exact hnew.receives rest htruthful
  | abandonedQueue some all rest =>
    refine (h.dropQueue (List.nil_sublist _)).receives rest
      (h.truthful_failed (fun op hop => hop)
      (List.forall₂_same.mpr fun op _ => Batch.refed_self op) some)
  | abandonedBatches some all rest =>
    refine h.drained.receives rest ?_
    intro d hd
    obtain ⟨b, hb, hmem⟩ := some d hd
    obtain ⟨id, -, hstep⟩ :=
      h.feeds.each b.members (List.mem_append_right _ (List.mem_map_of_mem hb))
    exact Batch.truthful_of_mem_failures hstep.allTruthful hmem

theorem moves (h : e.Faithful ex nodes) (hmoves : Moves e e') :
    e'.Faithful ex nodes := by
  induction hmoves with
  | refl => exact h
  | tail _ hmove ih => exact ih.move hmove

theorem loss (h : e.Faithful ex nodes) (hloss : Loss e e') : e'.Faithful ex nodes := by
  cases hloss with
  | lost took step rest =>
    exact (h.stepped took step).2.1.receives rest (List.forall_mem_nil _)

end Faithful

end Engine

end Lockstep
