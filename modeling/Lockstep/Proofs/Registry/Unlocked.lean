import Lockstep.Proofs.Registry.Lookup
set_option autoImplicit false

/-!
# A registry without its locks

Whether batches are locked makes no difference to where they lie.  So releasing
all locks commutes with whatever a registry does.
-/

namespace Lockstep

/-- The batch with its lock released. -/
def Batch.unlocked (b : Batch) : Batch := { b with locked := false }

namespace Registry

/-- The registry with all locks released. -/
def unlocked (r : Registry) : Registry :=
  { r with slots := r.slots.map (Option.map Batch.unlocked) }

variable {r : Registry} {index : Nat} {b : Batch}

theorem sound_unlocked : r.unlocked.Sound ↔ r.Sound := by
  have hsize : r.unlocked.slots.size = r.slots.size := Array.size_map
  constructor
  · exact fun h => ⟨h.capacity, hsize.symm.trans h.size, h.ordered, h.fits⟩
  · exact fun h => ⟨h.capacity, hsize.trans h.size, h.ordered, h.fits⟩

theorem inSlot_unlocked (r : Registry) (index : Nat) :
    r.unlocked.inSlot index = (r.inSlot index).map Batch.unlocked := by
  have hslot : r.unlocked.slotOf index = r.slotOf index := rfl
  unfold inSlot
  rw [hslot, Array.getD_eq_getD_getElem?, Array.getD_eq_getD_getElem?]
  unfold unlocked
  rw [Array.getElem?_map]
  cases r.slots[r.slotOf index]? <;> rfl

theorem setSlot_unlocked (r : Registry) (index : Nat) (content : Option Batch) :
    (r.setSlot index content).unlocked =
      r.unlocked.setSlot index (content.map Batch.unlocked) := by
  unfold setSlot unlocked
  dsimp only
  rw [Array.map_setIfInBounds]
  rfl

theorem get?_unlocked (r : Registry) (index : Nat) :
    r.unlocked.get? index = (r.get? index).map Batch.unlocked := by
  have hwindow : r.unlocked.inWindow index = r.inWindow index := rfl
  unfold get?
  rw [hwindow, inSlot_unlocked]
  split <;> rfl

theorem replace_unlocked (r : Registry) (index : Nat) (b : Batch) :
    (r.replace index b).unlocked = r.unlocked.replace index b.unlocked := by
  unfold replace
  rw [get?_unlocked, Option.isSome_map]
  split
  · exact setSlot_unlocked r index (some b)
  · rfl

theorem unlocked_replace_locked (live : r.get? index = some b) (locked : Bool) :
    (r.replace index { b with locked := locked }).unlocked = r.unlocked := by
  have hsame : ({ b with locked := locked } : Batch).unlocked = b.unlocked := rfl
  rw [replace_unlocked, hsame]
  exact replace_self ((get?_unlocked r index).trans (congrArg _ live))

theorem insert?_unlocked (r : Registry) (b : Batch) :
    r.unlocked.insert? b.unlocked = (r.insert? b).map fun (index, r') =>
      (index, r'.unlocked) := by
  have hfull : r.unlocked.isFull = r.isFull := rfl
  have hslot := setSlot_unlocked r r.newest (some b)
  unfold insert?
  rw [hfull]
  split
  · rfl
  · refine congrArg some (congrArg (Prod.mk r.newest) ?_)
    exact congrArg
      (fun s : Registry => { s with newest := r.newest + 1, live := r.live + 1 }) hslot.symm

theorem firstTaken_unlocked (r : Registry) (index count : Nat) :
    r.unlocked.firstTaken index count = r.firstTaken index count := by
  induction count generalizing index with
  | zero => rfl
  | succ count ih =>
    unfold firstTaken
    rw [inSlot_unlocked, Option.isSome_map, ih]

theorem remove?_unlocked (r : Registry) (index : Nat) :
    r.unlocked.remove? index =
      (r.remove? index).map fun (b, r') => (b.unlocked, r'.unlocked) := by
  unfold remove?
  rw [get?_unlocked, Option.map_map, Option.map_map]
  congr 1
  funext b
  have hslot := setSlot_unlocked r index none
  have htaken :=
    firstTaken_unlocked { r.setSlot index none with live := r.live - 1 } r.oldest
    (r.newest - r.oldest)
  have hcompact :
    ({ r.setSlot index none with live := r.live - 1 } : Registry).compact.unlocked =
      ({ r.setSlot index none with live := r.live - 1 } :
          Registry).unlocked.compact := by
    unfold compact
    exact congrArg (fun oldest =>
      { ({ r.setSlot index none with live := r.live - 1 } : Registry).unlocked
        with oldest := oldest })
      htaken.symm
  refine congrArg (Prod.mk b.unlocked) (Eq.trans ?_ hcompact.symm)
  exact congrArg (fun s : Registry => { s with live := r.live - 1 }.compact) hslot.symm

end Registry

end Lockstep
