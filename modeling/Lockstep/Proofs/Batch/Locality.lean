import Lockstep.Proofs.Batch.Cost
set_option autoImplicit false

/-!
# Batches do not disturb each other

Of the whole table a pipeline sees its cursor and the graph, and not even the
number of the cursor.  So a run over a copy of the cursor in another table takes
the same rows in the same steps, and an operation over the start of its kind has
one outcome of its own, wherever it is run.

A batch follows its operations if it has come as far with each of them as that
operation would have come by itself.  It goes on to do so when it is advanced,
by any number of rounds, and when scans of other batches are moved; and it
delivers every operation with its own outcome.
-/

namespace Lockstep

namespace Scans

/-- The cursor `id'` of the table `s'` is a copy of the cursor `id` of the table
`s`, over the same graph. -/
structure IsCopy (id : CursorId) (s : Scans) (id' : CursorId) (s' : Scans) : Prop where
  isOpen : s.IsOpen id
  isOpen' : s'.IsOpen id'
  graph : s'.graph = s.graph
  cursor : s'.cursor id' = s.cursor id

namespace IsCopy

variable {id id' : CursorId} {s s' : Scans}

theorem upcoming (h : IsCopy id s id' s') : s'.upcoming id' = s.upcoming id := by
  unfold Scans.upcoming
  rw [h.cursor, h.graph]

theorem pull (h : IsCopy id s id' s') :
    (s'.pull id').1 = (s.pull id).1 ∧ IsCopy id (s.pull id).2 id' (s'.pull id').2 := by
  have hpull : (s'.cursor id').pull s'.graph = (s.cursor id).pull s.graph := by
    rw [h.cursor, h.graph]
  refine ⟨congrArg (·.1) hpull, (s.onlyMoves_pull id).isOpen h.isOpen,
    (s'.onlyMoves_pull id').isOpen h.isOpen', congrArg (·.2.2) hpull, ?_⟩
  rw [cursor_pull_self h.isOpen, cursor_pull_self h.isOpen', hpull]

theorem read (h : IsCopy id s id' s') (cached : Bool) :
    (s'.read id' cached).1 = (s.read id cached).1 ∧
      IsCopy id (s.read id cached).2 id' (s'.read id' cached).2 := by
  cases cached with
  | true => exact ⟨congrArg Cursor.readCached h.cursor, h⟩
  | false => exact h.pull

end IsCopy

end Scans

namespace Pipeline

variable {p : Pipeline} {id' : CursorId} {s s' : Scans}

/-- The pipeline over another cursor. -/
def readFrom (id : CursorId) (p : Pipeline) : Pipeline := { p with cursor := id }

theorem readFrom_self {id : CursorId} (h : p.cursor = id) : p.readFrom id = p := by
  subst h
  rfl

theorem readFrom_stop (id : CursorId) (p : Pipeline) :
    (p.readFrom id).stop = p.stop.readFrom id := by
  unfold stop
  split
  · rename_i hfinished
    exact (if_pos hfinished).symm ▸ rfl
  · rename_i hlive
    exact (if_neg hlive).symm ▸ rfl

theorem readFrom_receive (id : CursorId) (p : Pipeline) (row : Value) :
    (p.readFrom id).receive row =
      ((p.receive row).1, (p.receive row).2.readFrom id) := by
  unfold receive readFrom
  dsimp only
  split <;> rfl

theorem readFrom_conclude (id : CursorId) (p : Pipeline)
    (answer : Except Interruption Unit) :
    (p.readFrom id).conclude answer =
      ((p.conclude answer).1, (p.conclude answer).2.readFrom id) := by
  cases answer <;> rfl

theorem readFrom_take (id : CursorId) (p : Pipeline)
    (outcome : Except Interruption Progress) :
    (p.readFrom id).take outcome =
      ((p.take outcome).1, (p.take outcome).2.readFrom id) := by
  have hanswer : (p.readFrom id).answer? = p.answer? := rfl
  have hcount : (p.readFrom id).countStep = p.countStep.readFrom id := rfl
  unfold take
  rw [hanswer, hcount]
  split
  · exact readFrom_conclude id p.countStep _
  · unfold accept
    split
    · rfl
    · exact readFrom_conclude id p.countStep _
    · rfl
    · exact readFrom_receive id p.countStep _

theorem cursor_step (p : Pipeline) (s : Scans) : (p.step s).2.1.cursor = p.cursor := by
  cases hover : p.isOver with
  | true =>
    rw [step_of_isOver hover]
    unfold stop
    split <;> rfl
  | false =>
    rw [step_of_not_isOver hover]
    exact (p.sameScan_take _).cursor

/-- A step over a copy of the cursor does the same. -/
theorem step_readFrom (copy : Scans.IsCopy p.cursor s id' s') :
    ((p.readFrom id').step s').1 = (p.step s).1 ∧ ((p.readFrom id').step s').2.1 =
      (p.step s).2.1.readFrom id' ∧
      Scans.IsCopy p.cursor (p.step s).2.2 id' ((p.readFrom id').step s').2.2 := by
  cases hover : p.isOver with
  | true =>
    have hover' : (p.readFrom id').isOver = true := hover
    rw [step_of_isOver hover, step_of_isOver hover']
    exact ⟨rfl, readFrom_stop id' p, copy⟩
  | false =>
    have hover' : (p.readFrom id').isOver = false := hover
    obtain ⟨hread, hcopy⟩ := copy.read p.cached
    have hread' : (s'.read (p.readFrom id').cursor (p.readFrom id').cached).1 =
      (s.read p.cursor p.cached).1 := hread
    have hafter : Scans.IsCopy p.cursor (p.scansAfter s) id'
        ((p.readFrom id').scansAfter s') := by
      unfold scansAfter
      rw [show (p.readFrom id').answer? = p.answer? from rfl]
      split
      · exact copy
      · exact hcopy
    rw [step_of_not_isOver hover, step_of_not_isOver hover', hread', readFrom_take]
    exact ⟨rfl, rfl, hafter⟩

theorem cursor_steps (count : Nat) (p : Pipeline) (s : Scans) :
    (steps count p s).1.cursor = p.cursor := by
  induction count generalizing p s with
  | zero => rfl
  | succ count ih => exact (ih _ _).trans (p.cursor_step s)

theorem steps_readFrom (count : Nat) (copy : Scans.IsCopy p.cursor s id' s') :
    (steps count (p.readFrom id') s').1 = (steps count p s).1.readFrom id' ∧
      Scans.IsCopy p.cursor (steps count p s).2 id'
        (steps count (p.readFrom id') s').2 := by
  induction count generalizing p s s' with
  | zero => exact ⟨rfl, copy⟩
  | succ count ih =>
    obtain ⟨-, hpipeline, hcopy⟩ := step_readFrom copy
    rw [← p.cursor_step s] at hcopy
    rw [steps, steps, hpipeline, ← p.cursor_step s]
    exact ih hcopy

end Pipeline

namespace Operation

variable {id id' : CursorId} {s s' : Scans}

/-- An operation costs as much over a copy of the cursor, and has the
same lone outcome. -/
theorem lone_of_isCopy (op : Operation) (copy : Scans.IsCopy id s id' s') :
    op.stepCost id' s' = op.stepCost id s ∧ op.pullCost id' s' = op.pullCost id s ∧
      op.loneOutcome id' s' = op.loneOutcome id s := by
  obtain ⟨hsteps, hcopy⟩ :=
    Pipeline.steps_readFrom (p := op.starting id) ((s.upcoming id).length + 1) copy
  have hrun : (op.starting id').run s' =
      Pipeline.steps ((s.upcoming id).length + 1)
          ((op.starting id).readFrom id') s' := by
    unfold Pipeline.run
    rw [show (op.starting id').cursor = id' from rfl, copy.upcoming]
    rfl
  have hcost : op.stepCost id' s' = op.stepCost id s := by
    unfold stepCost Pipeline.stepCost
    rw [hrun, hsteps]
    rfl
  refine ⟨hcost, ?_, ?_⟩
  · unfold pullCost Pipeline.pullCost
    rw [hrun]
    exact congrArg Cursor.pulls hcopy.cursor
  · unfold loneOutcome
    rw [hcost, hrun, hsteps]
    rfl

theorem after_of_isCopy (op : Operation) (copy : Scans.IsCopy id s id s')
    (count : Nat) :
    op.after id s' count = op.after id s count := by
  have hsteps := (Pipeline.steps_readFrom (p := op.starting id) count copy).1
  have hsame : (op.starting id).readFrom id = op.starting id := rfl
  have hcursor : (Pipeline.steps count (op.starting id) s).1.cursor = id :=
    Pipeline.cursor_steps count _ s
  rw [hsame, Pipeline.readFrom_self hcursor] at hsteps
  unfold after
  rw [hsteps]

/-- The table with one cursor, at the start of a kind. -/
def startOf (g : Graph) (op : Operation) : Scans :=
  { graph := g, cursors := #[{ source := .graph op.pipeline.kind 0 }] }

/-- The outcome of an operation that is run by itself over a graph. -/
def ownOutcome (g : Graph) (op : Operation) : Outcome := op.loneOutcome 0 (op.startOf g)

/-- The lone outcome over any cursor at the start of the operation's kind is its own. -/
theorem loneOutcome_of_start {op : Operation} (hopen : s.IsOpen id)
    (start : s.cursor id = { source := .graph op.pipeline.kind 0 }) :
    op.loneOutcome id s = op.ownOutcome s.graph := by
  have hcopy : Scans.IsCopy 0 (op.startOf s.graph) id s :=
    ⟨Nat.zero_lt_one, hopen, rfl, start⟩
  exact (op.lone_of_isCopy hcopy).2.2

end Operation

/-! ## Moving other cursors -/

namespace Scans

variable {id : CursorId} {s t : Scans}

theorem IsQuiet.pullTimes (quiet : s.IsQuiet id) (count : Nat) :
    (s.pullTimes id count).IsQuiet id ∧ (s.pullTimes id count).graph = s.graph := by
  induction count with
  | zero => exact ⟨quiet, rfl⟩
  | succ count ih =>
    obtain ⟨hquiet, hgraph⟩ := ih
    exact ⟨hquiet.pull.2, hquiet.cursor.pull.2.2.trans hgraph⟩

/-- Pulls of a quiet cursor bring it as far in another table over the same
graph, and move nothing else there. -/
theorem IsQuiet.pullTimes_withCursor (quiet : s.IsQuiet id) (hopen : t.IsOpen id)
    (graph : t.graph = s.graph) (count : Nat) :
    (t.withCursor id (s.cursor id)).pullTimes id count =
      t.withCursor id ((s.pullTimes id count).cursor id) := by
  induction count with
  | zero => rfl
  | succ count ih =>
    obtain ⟨hquiet, hgraph⟩ := quiet.pullTimes count
    have hpulled : (s.pullTimes id (count + 1)).cursor id =
        (((s.pullTimes id count).cursor id).pull t.graph).2.1 := by
      rw [graph, ← hgraph]
      exact cursor_pull_self hquiet.isOpen
    have hsame : (((s.pullTimes id count).cursor id).pull t.graph).2.2 = t.graph := by
      rw [graph, ← hgraph]
      exact hquiet.cursor.pull.2.2
    rw [hpulled, Scans.pullTimes, ih]
    unfold Scans.pull
    rw [cursor_withCursor hopen]
    unfold withCursor
    dsimp only
    rw [hsame, Array.setIfInBounds_setIfInBounds]

end Scans

/-- A run in unison goes on in unison when other cursors are moved: the table in
which its operations began could as well have had those cursors from the start. -/
theorem BatchRun.InUnison.elsewhere {ops : List Operation} {id : CursorId} {s t : Scans}
    {count : Nat} {r : BatchRun} (h : r.InUnison ops id s count) (quiet : s.IsQuiet id)
    (hopen : t.IsOpen id) (graph : t.graph = s.graph)
    (cursor : t.cursor id = r.scans.cursor id) :
    Scans.IsCopy id s id (t.withCursor id (s.cursor id)) ∧
      BatchRun.InUnison ops id (t.withCursor id (s.cursor id)) count
        { r with scans := t } := by
  have hopen' : (t.withCursor id (s.cursor id)).IsOpen id := by
    show id < (t.cursors.setIfInBounds id _).size
    rw [Array.size_setIfInBounds]
    exact hopen
  have hcopy : Scans.IsCopy id s id (t.withCursor id (s.cursor id)) :=
    ⟨quiet.isOpen, hopen', graph, Scans.cursor_withCursor hopen _⟩
  have hlone := fun op : Operation => op.lone_of_isCopy hcopy
  have hsteps := fun op => (hlone op).1
  have hpulls := fun op => (hlone op).2.1
  have houtcome := fun op => (hlone op).2.2
  have hafter := fun op : Operation => op.after_of_isCopy hcopy count
  obtain ⟨order, hordered, hdeliveries⟩ := h.deliveries
  refine ⟨hcopy, ?_, h.rounds, ?_, ?_, order, ?_, ?_⟩
  · simp only [hsteps]
    exact h.within
  · simp only [hsteps]
    rw [h.members]
    exact List.map_congr_left fun op _ => (hafter op).symm
  · simp only [hpulls]
    rw [quiet.pullTimes_withCursor hopen graph, ← h.scans, ← cursor,
      Scans.withCursor_cursor hopen]
  · simp only [hsteps]
    exact hordered
  · simp only [houtcome]
    exact hdeliveries

/-! ## Following operations -/

/-- Operations can begin over the cursor, which stands at the start of their
kind in the graph. -/
structure Scans.Starts (g : Graph) (ops : List Operation) (id : CursorId) (s : Scans) :
    Prop where
  graph : s.graph = g
  quiet : s.IsQuiet id
  begins : ∀ op ∈ ops, (op.starting id).Begins s
  kinds : ∀ op ∈ ops, s.cursor id = { source := .graph op.pipeline.kind 0 }

theorem Scans.Starts.isCopy {g : Graph} {ops : List Operation} {id : CursorId}
    {s s' : Scans} (h : s.Starts g ops id) (copy : IsCopy id s id s') :
    s'.Starts g ops id where
  graph := copy.graph.trans h.graph
  quiet := by
    refine ⟨copy.isOpen', ?_⟩
    rw [copy.cursor, copy.graph]
    exact h.quiet.cursor
  begins := fun op hop => by
    have hbegins := h.begins op hop
    have hcursor : s'.cursor (op.starting id).cursor =
      s.cursor (op.starting id).cursor := copy.cursor
    refine ⟨hbegins.fresh, hbegins.sound, hbegins.unfinished, hbegins.uncounted,
      ⟨copy.isOpen', ?_⟩, ?_, ?_⟩
    · rw [hcursor, copy.graph]
      exact hbegins.quiet.cursor
    · rw [hcursor]
      exact hbegins.unpulled
    · rw [hcursor]
      exact hbegins.unexhausted
  kinds := fun op hop => copy.cursor.trans (h.kinds op hop)

/-- The batch has come as far with each operation as that would have come by
itself over the graph, in as many steps as there were rounds. -/
def Batch.Follows (g : Graph) (ops : List Operation) (id : CursorId) (b : Batch)
    (s : Scans) : Prop :=
  ∃ start count deliveries,
    start.Starts g ops id ∧ BatchRun.InUnison ops id start count ⟨b, s, deliveries⟩

namespace Batch

variable {g : Graph} {ops : List Operation} {id : CursorId} {b : Batch} {s : Scans}

/-- A batch that was just formed of operations at their start follows them. -/
theorem follows_of_form {name : String} {first : Operation} {others : List Operation}
    (form : Batch.form name (first :: others) s = .ok b)
    (unstarted : ∀ op ∈ first :: others, op.Unstarted s)
    (sound : ∀ op ∈ first :: others, Link.IsSound op.pipeline.links)
    (source : (s.cursor first.pipeline.cursor).source = .graph first.pipeline.kind 0)
    (quiet : s.graph.IsQuiet) :
    b.Follows s.graph (first :: others) first.pipeline.cursor s := by
  obtain ⟨-, hkinds⟩ := grouped_of_form_ok form
  rw [form_eq name hkinds fun op hop => (unstarted op hop).pristine.pulls] at form
  cases form
  have hfirst := unstarted first List.mem_cons_self
  have hquiet : (s.cursor first.pipeline.cursor).source.IsQuiet s.graph :=
    source ▸ quiet
  have hbegins : ∀ op ∈ first :: others, (op.starting first.pipeline.cursor).Begins s :=
    fun op hop => Operation.begins_starting hfirst hquiet (unstarted op hop)
      (sound op hop)
  refine ⟨s, 0, [],
    ⟨rfl, ⟨hfirst.isOpen, hfirst.pristine ▸ rfl, hquiet⟩, hbegins, fun op hop => ?_⟩,
    inUnison_grouped name hbegins⟩
  have hkind : op.pipeline.kind = first.pipeline.kind := by
    rcases List.mem_cons.mp hop with rfl | hother
    · rfl
    · exact hkinds op hother
  rw [hkind, ← source]
  exact hfirst.pristine

namespace Follows

theorem cursor (h : b.Follows g ops id s) :
    ∀ op ∈ b.members, op.pipeline.cursor = id := by
  obtain ⟨start, count, deliveries, hstarts, hunison⟩ := h
  exact fun op hop => (hunison.steady hstarts.begins op hop).cursor

theorem elsewhere (h : b.Follows g ops id s) {t : Scans} (hopen : t.IsOpen id)
    (graph : t.graph = g) (cursor : t.cursor id = s.cursor id) :
    b.Follows g ops id t := by
  obtain ⟨start, count, deliveries, hstarts, hunison⟩ := h
  obtain ⟨hcopy, hunison'⟩ :=
    hunison.elsewhere hstarts.quiet hopen (graph.trans hstarts.graph.symm) cursor
  exact ⟨_, count, deliveries, hstarts.isCopy hcopy, hunison'⟩

/-- A batch that is advanced goes on following its operations, and delivers each
with its own outcome. -/
theorem guardedAdvance (h : b.Follows g ops id s) (sch : Scheduler) :
    (∀ retryAt,
      Follows g ops id { (sch.guardedAdvance none b s).batch with retryAt := retryAt }
      (sch.guardedAdvance none b s).scans) ∧
      (sch.guardedAdvance none b s).scans.graph = g ∧
      ∀ d ∈ (sch.guardedAdvance none b s).deliveries, ∃ op ∈ ops,
        d.outcome = op.ownOutcome g := by
  obtain ⟨start, count, deliveries, hstarts, hunison⟩ := h
  have hadvanced := hunison.advance hstarts.begins sch.stride sch.maxRetries
  have hanswer :
    BatchRun.answer ⟨b, s, deliveries⟩ (.advance sch.stride sch.maxRetries) =
      ⟨(sch.guardedAdvance none b s).batch, (sch.guardedAdvance none b s).scans,
        deliveries ++ (sch.guardedAdvance none b s).deliveries⟩ := rfl
  rw [hanswer] at hadvanced
  generalize sch.guardedAdvance none b s = a at hadvanced
  refine ⟨fun retryAt =>
    ⟨start, _, _, hstarts, hadvanced.within, hadvanced.rounds, hadvanced.members,
    hadvanced.scans, hadvanced.deliveries⟩, ?_, fun d hd => ?_⟩
  · have hscans := hadvanced.scans
    dsimp only at hscans
    rw [hscans, (hstarts.quiet.pullTimes _).2, hstarts.graph]
  · obtain ⟨order, hordered, houtcomes⟩ := hadvanced.deliveries
    have hmem : d.outcome ∈ order.map fun entry => entry.1.loneOutcome id start := by
      rw [← houtcomes]
      exact List.mem_map_of_mem (List.mem_append_right _ hd)
    obtain ⟨⟨op, place⟩, hentry, hsame⟩ := List.mem_map.mp hmem
    have hop : op ∈ ops :=
      List.fst_mem_of_mem_zipIdx (List.mem_filter.mp (hordered.perm.subset hentry)).1
    refine ⟨op, hop, hsame.symm.trans ?_⟩
    rw [← hstarts.graph]
    exact Operation.loneOutcome_of_start hstarts.quiet.isOpen (hstarts.kinds op hop)

end Follows

end Batch

end Lockstep
