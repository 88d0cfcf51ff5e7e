import Lockstep.Proofs.Batch.Round
import Lockstep.Query.Plan
import Mathlib.Data.List.Forall2
set_option autoImplicit false

/-!
# Forming a batch

Operations that were never stepped, over scans that were never pulled, can be
grouped whenever their kinds agree.  Grouping feeds all of them by the cursor of
the first and changes nothing else, so each has to end with what its links make
of the rows of that one source.
-/

namespace Lockstep

/-- A cursor that was never pulled. -/
def Cursor.IsPristine (c : Cursor) : Prop := c = { source := c.source }

theorem Cursor.IsPristine.pulls {c : Cursor} (h : c.IsPristine) : c.pulls = 0 := by
  rw [h]

theorem Cursor.IsPristine.upcoming {c : Cursor} (h : c.IsPristine) (g : Graph) :
    c.upcoming g = c.source.rows g := by
  rw [h]
  rfl

namespace Operation

/-- The operation was never stepped and its scan, which is open, never pulled. -/
structure Unstarted (s : Scans) (op : Operation) : Prop where
  counters : op.pipeline.counters = {}
  rows : op.pipeline.rows = #[]
  finished : op.pipeline.finished = false
  isOpen : s.IsOpen op.pipeline.cursor
  pristine : (s.cursor op.pipeline.cursor).IsPristine

/-- The operation fed by a given cursor. -/
def fedBy (id : CursorId) (cached : Bool) (op : Operation) : Operation :=
  { op with pipeline := { op.pipeline with cursor := id, cached := cached } }

/-- What an operation that was never stepped has to end with over given rows. -/
def standalone (op : Operation) (rows : List Value) : List Value :=
  Link.yield op.pipeline.links rows

theorem Unstarted.promise {s : Scans} {op : Operation} (h : op.Unstarted s)
    (id : CursorId) (cached : Bool) (rows : List Value) :
    (op.fedBy id cached).pipeline.promise rows = op.standalone rows := by
  have hrows : (op.fedBy id cached).pipeline.rows = #[] := h.rows
  have hfinished : (op.fedBy id cached).pipeline.finished = false := h.finished
  unfold Pipeline.promise
  rw [hrows, hfinished]
  rfl

theorem unstarted_openScan (plan : Plan) (s : Scans) (sequence : Nat) (query : String) :
    Unstarted (plan.openScan s).2 ⟨sequence, query, (plan.openScan s).1⟩ := by
  refine ⟨rfl, rfl, rfl, s.isOpen_openCursor_self plan.source, ?_⟩
  show ((plan.openScan s).2.cursor s.cursors.size).IsPristine
  exact congrArg Cursor.IsPristine (s.cursor_openCursor_self plan.source) |>.mpr rfl

end Operation

namespace Batch

variable {s : Scans}

/-! ## Whatever the scans -/

/-- Grouping only changes what feeds an operation. -/
def Refed (op op' : Operation) : Prop := ∃ id cached, op' = op.fedBy id cached

theorem refed_self (op : Operation) : Refed op op :=
  ⟨op.pipeline.cursor, op.pipeline.cached, rfl⟩

theorem refed_wire (leader : Pipeline) (s : Scans) (ops : List Operation) :
    List.Forall₂ Refed ops (wire leader s ops).1 := by
  induction ops with
  | nil => exact .nil
  | cons op ops ih =>
    unfold wire
    cases hfollow : op.pipeline.follow leader s with
    | error failure =>
      exact .cons (refed_self op) (List.forall₂_same.mpr fun op _ => refed_self op)
    | ok p =>
      refine .cons ?_ ih
      unfold Pipeline.follow at hfollow
      split at hfollow
      · cases hfollow
      · split at hfollow
        · cases hfollow
          exact ⟨op.pipeline.cursor, true, rfl⟩
        · split at hfollow
          · cases hfollow
          · cases hfollow
            exact ⟨leader.cursor, true, rfl⟩

/-- A batch has the operations that it was formed of, and nobody advances it. -/
theorem refed_of_form_ok {name : String} {ops : List Operation} {b : Batch}
    (h : form name ops s = .ok b) :
    List.Forall₂ Refed ops b.members ∧ b.locked = false := by
  cases ops with
  | nil => cases h
  | cons first others =>
    have hwire := refed_wire (first.pipeline.setCached false) s others
    unfold form at h
    dsimp only at h
    generalize wire (first.pipeline.setCached false) s others = wired at h hwire
    obtain ⟨others', failure⟩ := wired
    cases failure with
    | some failure => cases h
    | none =>
      cases h
      exact ⟨.cons ⟨first.pipeline.cursor, false, rfl⟩ hwire, rfl⟩

theorem members_ne_nil_of_form {name : String} {ops : List Operation} {b : Batch}
    (h : form name ops s = .ok b) : b.members ≠ [] := by
  intro hempty
  have hrefed := (refed_of_form_ok h).1
  rw [hempty, List.forall₂_nil_right_iff] at hrefed
  rw [hrefed] at h
  cases h

theorem unstarted_of_form {name : String} {ops : List Operation} {b : Batch}
    (h : form name ops s = .ok b) : b.rounds = 0 ∧ b.retryAt = none := by
  cases ops with
  | nil => cases h
  | cons first others =>
    unfold form at h
    dsimp only at h
    split at h
    · cases h
    · cases h
      exact ⟨rfl, rfl⟩

theorem unlocked_of_form {name : String} {ops : List Operation} {b : Batch}
    (h : form name ops s = .ok b) : b.locked = false := by
  cases ops with
  | nil => cases h
  | cons first others =>
    unfold form at h
    dsimp only at h
    split at h
    · cases h
    · cases h
      rfl

/-- Operations that could not be grouped are handed back. -/
theorem refed_of_form_error {name : String} {ops operations : List Operation}
    {f : Failure} (h : form name ops s = .error ⟨f, operations⟩) :
    List.Forall₂ Refed ops operations := by
  cases ops with
  | nil =>
    cases h
    exact .nil
  | cons first others =>
    have hwire := refed_wire (first.pipeline.setCached false) s others
    unfold form at h
    dsimp only at h
    generalize wire (first.pipeline.setCached false) s others = wired at h hwire
    obtain ⟨others', failure⟩ := wired
    cases failure with
    | none => cases h
    | some failure =>
      cases h
      exact .cons ⟨first.pipeline.cursor, false, rfl⟩ hwire

theorem exists_refed {ops ops' : List Operation} (h : List.Forall₂ Refed ops ops')
    {op' : Operation} (hop : op' ∈ ops') : ∃ op ∈ ops, Refed op op' := by
  induction h with
  | nil => cases hop
  | @cons op _ ops _ hrefed _ ih =>
    rcases List.mem_cons.mp hop with rfl | hrest
    · exact ⟨op, List.mem_cons_self, hrefed⟩
    · obtain ⟨found, hfound, hrefed⟩ := ih hrest
      exact ⟨found, List.mem_cons_of_mem _ hfound, hrefed⟩

theorem map_sequence_of_refed {ops ops' : List Operation}
    (h : List.Forall₂ Refed ops ops') :
    ops'.map Operation.sequence = ops.map Operation.sequence := by
  induction h with
  | nil => rfl
  | cons hop _ ih =>
    obtain ⟨id, cached, rfl⟩ := hop
    rw [List.map_cons, List.map_cons, ih]
    rfl

/-! ## Over unpulled scans of one kind -/

/-- Making operations follow an unpulled scan of their kind only changes
what feeds them. -/
theorem wire_eq (leader : Pipeline) (hleader : (s.cursor leader.cursor).pulls = 0)
    {ops : List Operation} (kinds : ∀ op ∈ ops, op.pipeline.kind = leader.kind)
    (hops : ∀ op ∈ ops, (s.cursor op.pipeline.cursor).pulls = 0) :
    wire leader s ops = (ops.map (Operation.fedBy leader.cursor true), none) := by
  induction ops with
  | nil => rfl
  | cons op ops ih =>
    obtain ⟨hkind, hkinds⟩ := List.forall_mem_cons.mp kinds
    obtain ⟨hpulls, hrest⟩ := List.forall_mem_cons.mp hops
    have hfollow : op.pipeline.follow leader s =
        .ok { op.pipeline with cursor := leader.cursor } := by
      unfold Pipeline.follow
      rw [if_neg (fun hne => hne hkind.symm)]
      split
      · rename_i hsame
        rw [← hsame]
      · rw [if_neg (by omega)]
    rw [wire, hfollow, ih hkinds hrest]
    rfl

/-- The members of a batch of operations, the first one driving the scan. -/
def grouped (first : Operation) (others : List Operation) : List Operation :=
  first.fedBy first.pipeline.cursor false ::
    others.map (Operation.fedBy first.pipeline.cursor true)

theorem form_eq (id : String) {first : Operation} {others : List Operation}
    (kinds : ∀ op ∈ others, op.pipeline.kind = first.pipeline.kind)
    (unpulled : ∀ op ∈ first :: others, (s.cursor op.pipeline.cursor).pulls = 0) :
    form id (first :: others) s =
      .ok {
        id := id
        firstSequence := first.sequence
        members := grouped first others } := by
  obtain ⟨hfirst, hothers⟩ := List.forall_mem_cons.mp unpulled
  have hwire := wire_eq (first.pipeline.setCached false) hfirst kinds hothers
  unfold form
  dsimp only
  rw [hwire]
  rfl

/-- Operations that all follow a pipeline are of its kind, and only what feeds
them has changed. -/
theorem wire_of_none {leader : Pipeline} {ops ops' : List Operation}
    (h : wire leader s ops = (ops', none)) :
    ops' = ops.map (Operation.fedBy leader.cursor true) ∧
      ∀ op ∈ ops, op.pipeline.kind = leader.kind := by
  induction ops generalizing ops' with
  | nil =>
    cases h
    exact ⟨rfl, List.forall_mem_nil _⟩
  | cons op ops ih =>
    rw [wire] at h
    cases hfollow : op.pipeline.follow leader s with
    | error failure =>
      rw [hfollow] at h
      cases h
    | ok p =>
      rw [hfollow] at h
      obtain ⟨rfl, hnone⟩ := Prod.mk.inj h
      obtain ⟨hrest, hkinds⟩ := ih (Prod.ext rfl hnone)
      obtain ⟨rfl, hkind⟩ : p = { op.pipeline with cursor := leader.cursor } ∧
          op.pipeline.kind = leader.kind := by
        unfold Pipeline.follow at hfollow
        split at hfollow
        · cases hfollow
        · rename_i hsame
          have hkind : op.pipeline.kind = leader.kind := (not_not.mp hsame).symm
          split at hfollow
          · rename_i hcursor
            cases hfollow
            exact ⟨by rw [← hcursor], hkind⟩
          · split at hfollow
            · cases hfollow
            · cases hfollow
              exact ⟨rfl, hkind⟩
      exact ⟨congrArg (op.fedBy leader.cursor true :: ·) hrest,
        List.forall_mem_cons.mpr ⟨hkind, hkinds⟩⟩

theorem grouped_of_form_ok {name : String} {first : Operation} {others : List Operation}
    {b : Batch} (h : form name (first :: others) s = .ok b) :
    b.members = grouped first others ∧ ∀ op ∈ others,
      op.pipeline.kind = first.pipeline.kind := by
  unfold form at h
  dsimp only at h
  split at h
  · cases h
  · rename_i others' hwire
    cases h
    obtain ⟨rfl, hkinds⟩ := wire_of_none hwire
    exact ⟨rfl, hkinds⟩

theorem map_sequence_grouped (first : Operation) (others : List Operation) :
    (grouped first others).map Operation.sequence =
      (first :: others).map Operation.sequence := by
  unfold grouped
  rw [List.map_cons, List.map_cons, List.map_map]
  rfl

/-- Every member of a new batch is one of its operations, fed by the
cursor of the first. -/
theorem mem_grouped {first op : Operation} {others : List Operation}
    (h : op ∈ grouped first others) :
    ∃ op₀ ∈ first :: others, ∃ cached, op = op₀.fedBy first.pipeline.cursor cached := by
  rcases List.mem_cons.mp h with rfl | hother
  · exact ⟨first, List.mem_cons_self, false, rfl⟩
  · obtain ⟨op₀, hop₀, rfl⟩ := List.mem_map.mp hother
    exact ⟨op₀, List.mem_cons_of_mem _ hop₀, true, rfl⟩

/-- The members of a new batch are on course if each has to end with what it
makes of the rows of the first. -/
theorem inStep_grouped {ex : Expectation} {first : Operation} {others : List Operation}
    (unstarted : ∀ op ∈ first :: others, op.Unstarted s)
    (expected : ∀ op ∈ first :: others,
      ex op.sequence op.query (op.standalone (s.upcoming first.pipeline.cursor))) :
    InStep ex first.pipeline.cursor s (grouped first others) := by
  intro op hop
  obtain ⟨op₀, hop₀, cached, rfl⟩ := mem_grouped hop
  refine ⟨rfl, ?_⟩
  unfold Operation.OnCourse
  rw [(unstarted op₀ hop₀).promise]
  exact expected op₀ hop₀

end Batch

end Lockstep
