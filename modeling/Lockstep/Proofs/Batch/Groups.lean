import Lockstep.Proofs.Batch.Round
import Lockstep.Proofs.Scan.Disturbance
import Mathlib.Data.List.Perm.Basic
set_option autoImplicit false

/-!
# Groups of operations

The operations of an engine fall into groups, each fed by a cursor of its own: an
operation that waits is a group by itself, and a batch is one.  A pull moves the
cursor of one group and leaves all others on course, whatever becomes of that one.
-/

namespace Lockstep

/-- No operation of one group is fed by the cursor of an operation of the other. -/
def Apart (ops others : List Operation) : Prop :=
  ∀ op ∈ ops, ∀ other ∈ others, op.pipeline.cursor ≠ other.pipeline.cursor

theorem Apart.symm {ops others : List Operation} (h : Apart ops others) :
    Apart others ops :=
  fun other hother op hop => (h op hop other hother).symm

namespace Scans

/-- Every group is fed by an open cursor and on course, and no two groups
by the same one. -/
structure Feeds (ex : Expectation) (s : Scans) (groups : List (List Operation)) :
    Prop where
  each : ∀ ops ∈ groups, ∃ id, s.IsOpen id ∧ Batch.InStep ex id s ops
  apart : groups.Pairwise Apart

namespace Feeds

variable {ex : Expectation} {s s' : Scans}
  {groups groups' taken rest : List (List Operation)}
  {id : CursorId}

theorem nil : Feeds ex s [] := ⟨List.forall_mem_nil _, .nil⟩

theorem perm (h : Feeds ex s groups) (hperm : groups.Perm groups') :
    Feeds ex s groups' where
  each := fun ops hops => h.each ops (hperm.mem_iff.mpr hops)
  apart := (hperm.pairwise_iff Apart.symm).mp h.apart

theorem sublist (h : Feeds ex s groups) (hsub : groups'.Sublist groups) :
    Feeds ex s groups' where
  each := fun ops hops => h.each ops (hsub.subset hops)
  apart := h.apart.sublist hsub

theorem onCourse (h : Feeds ex s groups) {ops : List Operation} (hops : ops ∈ groups)
    {op : Operation} (hop : op ∈ ops) :
    s.IsOpen op.pipeline.cursor ∧ op.OnCourse ex (s.upcoming op.pipeline.cursor) := by
  obtain ⟨id, hopen, hstep⟩ := h.each ops hops
  obtain ⟨rfl, hcourse⟩ := hstep op hop
  exact ⟨hopen, hcourse⟩

theorem ne_of_mem (h : Feeds ex s (taken ++ rest)) {ops : List Operation}
    (hops : ops ∈ taken) {op : Operation} (hop : op ∈ ops) :
    ∀ others ∈ rest, ∀ other ∈ others, other.pipeline.cursor ≠ op.pipeline.cursor := by
  intro others hothers other hother
  exact ((List.pairwise_append.mp h.apart).2.2 ops hops others hothers op hop other hother).symm

theorem inStep_of_onlyMoves (moves : OnlyMoves id s s') {other : CursorId}
    {ops : List Operation} (hstep : Batch.InStep ex other s ops)
    (hne : ∀ op ∈ ops, op.pipeline.cursor ≠ id) :
    Batch.InStep ex other s' ops := by
  intro op hop
  obtain ⟨hid, hcourse⟩ := hstep op hop
  refine ⟨hid, ?_⟩
  rw [moves.upcoming (hid ▸ hne op hop)]
  exact hcourse

/-- Groups can be put together and moved on: if the new group is fed by the
cursor of one of those that it takes the place of and is on course, and no other
cursor was moved, then all are fed as before. -/
theorem regroup (h : Feeds ex s (taken ++ rest)) (moves : OnlyMoves id s s')
    {ops : List Operation} (own : ∃ old ∈ taken, ∃ op ∈ old, op.pipeline.cursor = id)
    (hops : Batch.InStep ex id s' ops) :
    Feeds ex s' (ops :: rest) := by
  obtain ⟨old, hold, op, hop, rfl⟩ := own
  have hopen := (h.onCourse (List.mem_append_left _ hold) hop).1
  have hne := h.ne_of_mem hold hop
  refine ⟨List.forall_mem_cons.mpr ⟨⟨_, moves.isOpen hopen, hops⟩, ?_⟩, ?_⟩
  · intro others hothers
    obtain ⟨other, hother, hstep⟩ := h.each others (List.mem_append_right _ hothers)
    exact ⟨other, moves.isOpen hother,
      inStep_of_onlyMoves moves hstep (hne others hothers)⟩
  · refine List.pairwise_cons.mpr ⟨?_, ?_⟩
    · intro others hothers new hnew other hother
      rw [(hops new hnew).1]
      exact (hne others hothers other hother).symm
    · exact (List.pairwise_append.mp h.apart).2.1

theorem disturb (h : Feeds ex s groups) (d : Disturbance) :
    Feeds ex (s.disturb d) groups := by
  refine ⟨?_, h.apart⟩
  intro ops hops
  obtain ⟨id, hopen, hstep⟩ := h.each ops hops
  refine ⟨id, hopen, ?_⟩
  intro op hop
  rw [upcoming_disturb]
  exact hstep op hop

end Feeds

/-- A new cursor can feed one more group. -/
theorem Feeds.openCursor {ex : Expectation} {s : Scans} {groups : List (List Operation)}
    (h : Feeds ex s groups) (source : Source) {ops : List Operation}
    (hops : Batch.InStep ex s.cursors.size (s.openCursor source).2 ops) :
    Feeds ex (s.openCursor source).2 (ops :: groups) := by
  refine ⟨List.forall_mem_cons.mpr ⟨⟨_, s.isOpen_openCursor_self source, hops⟩, ?_⟩,
    ?_⟩
  · intro others hothers
    obtain ⟨id, hid, hstep⟩ := h.each others hothers
    refine ⟨id, isOpen_openCursor hid source, ?_⟩
    intro op hop
    rw [upcoming_openCursor hid]
    exact hstep op hop
  · refine List.pairwise_cons.mpr ⟨?_, h.apart⟩
    intro others hothers new hnew other hother
    rw [(hops new hnew).1]
    exact (Nat.ne_of_lt (h.onCourse hothers hother).1).symm

end Scans

end Lockstep
