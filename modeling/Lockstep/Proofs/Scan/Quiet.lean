import Lockstep.Proofs.Pipeline.Promise
set_option autoImplicit false

/-!
# Scans without failures

A source is quiet if no read of it fails: its graph is open with no failure
pending, or its script has none.  Every pull of a sound cursor of a quiet source
gives something, and leaves it so.
-/

namespace Lockstep

/-- Whether a script entry is a failure or a crash. -/
def ScriptEntry.isInterruption : ScriptEntry → Bool
  | .interruption _ => true
  | _ => false

/-- Whether every read of the graph succeeds. -/
def Graph.IsQuiet (g : Graph) : Prop := g.isOpen = true ∧ g.pendingFailures = 0

theorem Graph.IsQuiet.obstacle? {g : Graph} (h : g.IsQuiet) : g.obstacle? = none := by
  unfold Graph.obstacle?
  rw [h.1, h.2]
  rfl

/-- Whether no read of the source fails. -/
def Source.IsQuiet (g : Graph) : Source → Prop
  | .graph _ _ => g.IsQuiet
  | .script entries => ∀ entry ∈ entries, entry.isInterruption = false

/-- A read of a quiet source gives something, leaves the source quiet and
the graph as it is. -/
theorem Source.IsQuiet.next {g : Graph} {source : Source} (h : source.IsQuiet g) :
    (∃ found, (source.next g).outcome = .ok found) ∧ (source.next g).source.IsQuiet g ∧
      (source.next g).graph = g := by
  cases source with
  | graph kind position =>
    have hobstacle := Graph.IsQuiet.obstacle? h
    unfold Source.next
    simp only [hobstacle]
    split
    · exact ⟨⟨_, rfl⟩, h, rfl⟩
    · exact ⟨⟨_, rfl⟩, h, rfl⟩
  | script entries =>
    cases entries with
    | nil => exact ⟨⟨_, rfl⟩, h, rfl⟩
    | cons entry rest =>
      obtain ⟨hentry, hrest⟩ := List.forall_mem_cons.mp h
      cases entry with
      | row row => exact ⟨⟨_, rfl⟩, hrest, rfl⟩
      | interruption i => cases hentry
      | ending => exact ⟨⟨_, rfl⟩, hrest, rfl⟩

/-- Whether every pull of the cursor gives something. -/
structure Cursor.IsQuiet (g : Graph) (c : Cursor) : Prop where
  sound : c.broken = false
  source : c.source.IsQuiet g

theorem Cursor.IsQuiet.pull {g : Graph} {c : Cursor} (h : c.IsQuiet g) :
    (∃ progress, (c.pull g).1 = .ok progress) ∧ (c.pull g).2.1.IsQuiet g ∧
      (c.pull g).2.2 = g := by
  obtain ⟨⟨found, houtcome⟩, hsource, hgraph⟩ := h.source.next
  unfold Cursor.pull
  rw [h.sound]
  simp only [Bool.false_eq_true, if_false]
  split
  · exact ⟨⟨_, rfl⟩, h, rfl⟩
  · rw [houtcome]
    cases found with
    | some row => exact ⟨⟨_, rfl⟩, ⟨rfl, hsource⟩, hgraph⟩
    | none => exact ⟨⟨_, rfl⟩, ⟨rfl, hsource⟩, hgraph⟩

namespace Scans

/-- Whether every pull of a cursor of the table gives something. -/
structure IsQuiet (id : CursorId) (s : Scans) : Prop where
  isOpen : s.IsOpen id
  cursor : (s.cursor id).IsQuiet s.graph

theorem IsQuiet.pull {id : CursorId} {s : Scans} (h : s.IsQuiet id) :
    (∃ progress, (s.pull id).1 = .ok progress) ∧ (s.pull id).2.IsQuiet id := by
  obtain ⟨hprogress, hcursor, hgraph⟩ := h.cursor.pull
  refine ⟨hprogress, (s.onlyMoves_pull id).isOpen h.isOpen, ?_⟩
  have hgraph' : (s.pull id).2.graph = s.graph := hgraph
  rw [hgraph', cursor_pull_self h.isOpen]
  exact hcursor

end Scans

end Lockstep
