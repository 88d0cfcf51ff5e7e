import Lockstep.Engine.Drive
import Lockstep.Proofs.Scan.Upcoming
set_option autoImplicit false

/-!
# What a scan has left to give

However often reads fail, a source that gave a row has less left than before,
and no read leaves it with more.  So a scan can give only so many rows, whatever
stands in its way.
-/

namespace Lockstep

/-- What is left hangs on how many nodes there are, and on nothing else of the graph. -/
theorem Source.remaining_congr {g g' : Graph} (nodes : g'.nodes = g.nodes)
    (source : Source) :
    source.remaining g' = source.remaining g := by
  unfold remaining
  rw [nodes]

/-- A read leaves no more than there was, and less if it gave a row. -/
theorem Source.remaining_next (g : Graph) (source : Source) :
    (source.next g).source.remaining (source.next g).graph ≤ source.remaining g ∧
      ∀ row, (source.next g).outcome = .ok (some row) →
        (source.next g).source.remaining (source.next g).graph <
          source.remaining g := by
  rw [Source.remaining_congr (source.nodes_next g)]
  cases source with
  | graph kind position =>
    have hnone : g.nodes.size - g.nodes.size ≤ g.nodes.size - position := by omega
    unfold next
    dsimp only
    cases g.obstacle? with
    | some f => exact ⟨Nat.le_refl _, fun row h => nomatch h⟩
    | none =>
      cases hfound : g.findFrom? kind position with
      | none => exact ⟨hnone, fun row h => nomatch h⟩
      | some node =>
        obtain ⟨hle, hnode, -⟩ := Graph.findFrom?_eq_some hfound
        have hlt : node.id < g.nodes.size := (List.getElem?_eq_some_iff.mp hnode).1
        have hless : g.nodes.size - (node.id + 1) < g.nodes.size - position := by omega
        exact ⟨Nat.le_of_lt hless, fun _ _ => hless⟩
  | script entries =>
    cases entries with
    | nil => exact ⟨Nat.le_refl _, fun row h => nomatch h⟩
    | cons entry rest =>
      cases entry <;> exact ⟨Nat.le_succ _, fun _ _ => Nat.lt_succ_self _⟩

/-- So does a pull of a cursor. -/
theorem Cursor.remaining_pull (c : Cursor) (g : Graph) :
    (c.pull g).2.1.source.remaining (c.pull g).2.2 ≤ c.source.remaining g ∧
      ∀ row, (c.pull g).1 = .ok (.row row) →
        (c.pull g).2.1.source.remaining (c.pull g).2.2 < c.source.remaining g := by
  obtain ⟨hle, hless⟩ := c.source.remaining_next g
  unfold pull
  split
  · exact ⟨Nat.le_refl _, fun row h => nomatch h⟩
  · split
    · exact ⟨Nat.le_refl _, fun row h => nomatch h⟩
    · dsimp only
      generalize c.source.next g = read at hle hless
      obtain ⟨outcome, source, g'⟩ := read
      dsimp only at hle hless ⊢
      cases outcome with
      | error i => cases i <;> exact ⟨hle, fun row h => nomatch h⟩
      | ok found =>
        cases found with
        | none => exact ⟨hle, fun row h => nomatch h⟩
        | some row => exact ⟨hle, fun _ _ => hless row rfl⟩

namespace Scans

/-- How many rows a cursor of the table can still give at most. -/
def remaining (s : Scans) (id : CursorId) : Nat :=
  (s.cursor id).source.remaining s.graph

/-- Whether a cursor of the table was found at its end. -/
def IsExhausted (s : Scans) (id : CursorId) : Prop := (s.cursor id).isExhausted = true

theorem OnlyMoves.remaining {id other : CursorId} {s s' : Scans} (h : OnlyMoves id s s')
    (hother : other ≠ id) : s'.remaining other = s.remaining other := by
  unfold Scans.remaining
  rw [h.others other hother, Source.remaining_congr h.nodes]

theorem remaining_pull {s : Scans} {id : CursorId} (hopen : s.IsOpen id) :
    (s.pull id).2.remaining id ≤ s.remaining id ∧
      ∀ row, (s.pull id).1 = .ok (.row row) →
      (s.pull id).2.remaining id < s.remaining id := by
  unfold remaining
  rw [cursor_pull_self hopen]
  exact (s.cursor id).remaining_pull s.graph

theorem pull_cases {s : Scans} {id : CursorId} (hopen : s.IsOpen id) :
    (∃ row, (s.pull id).1 = .ok (.row row)) ∨
      (s.pull id).1 = .ok .ended ∧ (s.pull id).2.IsExhausted id ∨ ∃ i,
        (s.pull id).1 = .error i := by
  have hcase := pullCase hopen
  unfold IsExhausted
  generalize (s.pull id).1 = outcome at hcase ⊢
  generalize (s.pull id).2.cursor id = c at hcase ⊢
  generalize (s.pull id).2.graph = g at hcase
  cases hcase with
  | again _ ended => exact .inr (.inl ⟨rfl, ended⟩)
  | row row _ _ _ _ _ _ => exact .inl ⟨_, rfl⟩
  | ended _ _ _ latest _ _ _ =>
    exact .inr (.inl ⟨rfl, by rw [Cursor.isExhausted, latest]⟩)
  | failed i _ _ _ _ => exact .inr (.inr ⟨i, rfl⟩)

/-- An exhausted scan stays so, whoever pulls a scan. -/
theorem isExhausted_pull {s : Scans} {id : CursorId} (hopen : s.IsOpen id)
    (h : s.IsExhausted id) (other : CursorId) : (s.pull other).2.IsExhausted id := by
  unfold IsExhausted at h ⊢
  by_cases hother : id = other
  · subst hother
    have hcase := pullCase hopen
    generalize (s.pull id).1 = outcome at hcase
    generalize (s.pull id).2.cursor id = c at hcase ⊢
    generalize (s.pull id).2.graph = g at hcase
    cases hcase with
    | again _ _ => exact h
    | row _ live _ _ _ _ _ | ended _ live _ _ _ _ _ =>
      rw [h] at live
      cases live
    | failed _ _ latest _ _ => rw [Cursor.isExhausted, latest]; exact h
  · rw [(s.onlyMoves_pull other).others id hother]
    exact h

/-- A read that finds the end is one of an exhausted scan. -/
theorem isExhausted_of_read (s : Scans) {id : CursorId} (hopen : s.IsOpen id)
    (cached : Bool) (h : (s.read id cached).1 = .ok .ended) :
    (s.read id cached).2.IsExhausted id := by
  cases cached with
  | true =>
    have hcached : (s.cursor id).readCached = .ok .ended := h
    show (s.cursor id).isExhausted = true
    unfold Cursor.readCached at hcached
    unfold Cursor.isExhausted
    split at hcached
    · cases hcached
    · split at hcached
      · cases hcached
      · cases hcached
      · rename_i latest
        rw [latest]
  | false =>
    have hpull : (s.pull id).1 = .ok .ended := h
    rcases pull_cases hopen with ⟨row, hrow⟩ | ⟨-, hended⟩ | ⟨i, herror⟩
    · rw [hrow] at hpull
      cases hpull
    · exact hended
    · rw [herror] at hpull
      cases hpull

end Scans

end Lockstep
